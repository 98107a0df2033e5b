import JsonnetLens.Uri.File
import JsonnetLens.Proofs.Path.Text
import JsonnetLens.Proofs.Text.RoundTrip
/-!
# File URIs of absolute paths

The URI of a path that begins with one slash has no authority, no query and no fragment, since
percent coding leaves no delimiter in it.  Splitting it gives the coded path back, and so the URI
leads back to its path (`toPath?_written`), a drive letter apart.
-/
namespace JsonnetLens

namespace Uri

/-- A scheme in the spelling that splitting gives it. -/
def isScheme (t : Text) : Bool :=
  t.head?.any Char.isAlpha && t.all isSchemeChar && Text.lowerAscii t = t

/-- A character that ends no part of a URI and that splitting does not drop. -/
def isInert (c : Char) : Bool := !isIgnored c && c ≠ '#' && c ≠ '?'

theorem isInert_iff {c : Char} : isInert c = true ↔ isIgnored c = false ∧ c ≠ '#' ∧ c ≠ '?' := by
  simp [isInert, and_assoc]

theorem printable_of_isSchemeChar {c : Char} (h : isSchemeChar c = true) : 0x20 < c.toNat := by
  have halnum : c.isAlphanum = true → 0x20 < c.toNat := by
    intro h
    delta Char.isAlphanum Char.isAlpha Char.isUpper Char.isLower Char.isDigit at h
    simp only [Bool.or_eq_true, Bool.and_eq_true, decide_eq_true_eq, ge_iff_le,
      UInt32.le_iff_toNat_le] at h
    rcases h with (⟨h, _⟩ | ⟨h, _⟩) | ⟨h, _⟩ <;> exact Nat.lt_of_lt_of_le (by decide) h
  simp only [isSchemeChar, Bool.or_eq_true, decide_eq_true_eq] at h
  rcases h with ((h | h) | h) | h
  · exact halnum h
  all_goals
    subst h
    decide

theorem isIgnored_of_isSchemeChar {c : Char} (h : isSchemeChar c = true) : isIgnored c = false := by
  have hlt := printable_of_isSchemeChar h
  by_cases hc : isIgnored c = true
  · simp only [isIgnored, Bool.or_eq_true, decide_eq_true_eq] at hc
    rcases hc with (hc | hc) | hc <;> exact absurd (hc ▸ hlt) (by decide)
  · simpa using hc

theorem cutScheme_append {scheme : Text} (h : isScheme scheme = true) (rest : Text) :
    cutScheme (scheme ++ ':' :: rest) = (scheme, rest) := by
  simp only [isScheme, Bool.and_eq_true, decide_eq_true_eq] at h
  obtain ⟨⟨hhead, hall⟩, hlower⟩ := h
  have hcolon : ':' ∉ scheme := fun hmem => absurd (List.all_eq_true.1 hall _ hmem) (by decide)
  rw [cutScheme, Text.cutFirst?_append hcolon]
  simp [hhead, hall, hlower]

theorem clean_eq_self {scheme rest : Text} (h : isScheme scheme = true)
    (hrest : ∀ c ∈ rest, isIgnored c = false) : clean (scheme ++ rest) = scheme ++ rest := by
  simp only [isScheme, Bool.and_eq_true] at h
  obtain ⟨⟨hhead, hall⟩, -⟩ := h
  have hall := List.all_eq_true.1 hall
  have hdrop : (scheme ++ rest).dropWhile (fun c => c.toNat ≤ 0x20) = scheme ++ rest := by
    cases scheme with
    | nil => simp at hhead
    | cons c scheme =>
      have := printable_of_isSchemeChar (hall c List.mem_cons_self)
      rw [List.cons_append, List.dropWhile_cons_of_neg]
      simpa using this
  rw [clean, hdrop, List.filter_eq_self]
  intro c hc
  rcases List.mem_append.1 hc with hc | hc
  · simp [isIgnored_of_isSchemeChar (hall c hc)]
  · simp [hrest c hc]

theorem cutAt_of_not_mem {delimiter : Char} {t : Text} (h : delimiter ∉ t) :
    cutAt delimiter t = (t, []) := by
  rw [cutAt, Text.cutFirst?_eq_none h, Option.getD_none]

theorem cutAt_append {delimiter : Char} {s : Text} (h : delimiter ∉ s) (t : Text) :
    cutAt delimiter (s ++ delimiter :: t) = (s, t) := by
  rw [cutAt, Text.cutFirst?_append h, Option.getD_some]

/-- **A URI with an empty authority splits into its scheme, its path and its query.** -/
theorem split?_of_rooted {scheme rest path query : Text} (hs : isScheme scheme = true)
    (hrooted : rest.head? = some '/') (hclean : ∀ c ∈ rest, isIgnored c = false)
    (hfragment : '#' ∉ rest) (hquery : cutAt '?' rest = (path, query)) :
    split? (scheme ++ "://".toList ++ rest) = .ok ⟨scheme, [], path, query, []⟩ := by
  have htext : scheme ++ "://".toList ++ rest = scheme ++ (':' :: '/' :: '/' :: rest) := by
    rw [List.append_assoc]
    rfl
  have hkeep : ∀ c ∈ (':' :: '/' :: '/' :: rest), isIgnored c = false := by
    intro c hc
    simp only [List.mem_cons] at hc
    rcases hc with rfl | rfl | rfl | hc
    · decide
    · decide
    · decide
    · exact hclean c hc
  have hauthority : cutAuthority ('/' :: '/' :: rest) = ([], rest) := by
    cases rest with
    | nil => cases hrooted
    | cons c rest =>
      obtain rfl : c = '/' := by simpa using hrooted
      rfl
  rw [htext, split?, clean_eq_self hs hkeep, cutScheme_append hs]
  simp only [hauthority, cutAt_of_not_mem hfragment, hquery]
  rfl

theorem split?_of_path {scheme path : Text} (hs : isScheme scheme = true)
    (hrooted : path.head? = some '/') (hinert : ∀ c ∈ path, isInert c = true) :
    split? (scheme ++ "://".toList ++ path) = .ok ⟨scheme, [], path, [], []⟩ := by
  have hchar : ∀ c ∈ path, isIgnored c = false ∧ c ≠ '#' ∧ c ≠ '?' :=
    fun c hc => isInert_iff.1 (hinert c hc)
  exact split?_of_rooted hs hrooted (fun c hc => (hchar c hc).1) (fun hc => (hchar _ hc).2.1 rfl)
    (cutAt_of_not_mem fun hc => (hchar _ hc).2.2 rfl)

end Uri

namespace FileUri

/-- A drive letter in lower case, with its slash and its colon, and the rest of the path. -/
def cutDrive : Text → Text × Text
  | '/' :: letter :: ':' :: rest =>
    if letter.isAlpha then (['/', letter.toLower, ':'], rest) else ([], '/' :: letter :: ':' :: rest)
  | path => ([], path)

/-- The path with its drive letter in lower case. -/
def lowerDrive (path : Text) : Text := (cutDrive path).1 ++ (cutDrive path).2

/-- The URI of a path with one slash in front. -/
def written (path : Text) : Text := scheme ++ "://".toList ++ quotePath path

theorem cutDrive_cons {letter : Char} (h : letter.isAlpha = true) (rest : Text) :
    cutDrive ('/' :: letter :: ':' :: rest) = (['/', letter.toLower, ':'], rest) := by
  rw [cutDrive, if_pos h]

theorem cutDrive_of_no_drive {path : Text} (h : ¬ Path.HasDrive path) : cutDrive path = ([], path) := by
  unfold cutDrive
  split
  · rename_i letter rest
    rw [if_neg fun hl => h ⟨letter, rest, rfl, hl⟩]
  · rfl

theorem quotePath_eq (path : Text) :
    quotePath path = (cutDrive path).1 ++ Percent.quote (cutDrive path).2 := by
  by_cases h : Path.HasDrive path
  · obtain ⟨letter, rest, rfl, hl⟩ := h
    rw [cutDrive_cons hl, quotePath, if_pos hl]
    rfl
  · rw [cutDrive_of_no_drive h, List.nil_append]
    unfold quotePath
    split
    · rename_i letter rest
      rw [if_neg fun hl => h ⟨letter, rest, rfl, hl⟩]
    · rfl

/-- What the letters among the first 128 characters have in common holds of every letter. -/
theorem of_isAlpha {p : Char → Prop}
    (hall : ∀ n < 0x80, (Char.ofNat n).isAlpha = true → p (Char.ofNat n)) {c : Char}
    (h : c.isAlpha = true) : p c :=
  Text.of_isAscii (p := fun c => c.isAlpha = true → p c) hall
    (Percent.isAscii_of_isAlphanum (by simp [Char.isAlphanum, h])) h

theorem isKept_toLower {c : Char} (h : c.isAlpha = true) :
    Percent.isKept c.toLower = true ∧ c.toLower ≠ '/' :=
  of_isAlpha (p := fun c => Percent.isKept c.toLower = true ∧ c.toLower ≠ '/') (by decide) h

theorem toLower_toLower {c : Char} (h : c.isAlpha = true) :
    c.toLower.isAlpha = true ∧ c.toLower.toLower = c.toLower :=
  of_isAlpha (p := fun c => c.toLower.isAlpha = true ∧ c.toLower.toLower = c.toLower) (by decide) h

theorem cutDrive_lowerDrive (path : Text) : cutDrive (lowerDrive path) = cutDrive path := by
  by_cases h : Path.HasDrive path
  · obtain ⟨letter, rest, rfl, hl⟩ := h
    obtain ⟨hlower, hsame⟩ := toLower_toLower hl
    rw [lowerDrive, cutDrive_cons hl]
    simp only [List.cons_append, List.nil_append]
    rw [cutDrive_cons hlower, hsame]
  · rw [lowerDrive, cutDrive_of_no_drive h, List.nil_append, cutDrive_of_no_drive h]

theorem quotePath_lowerDrive (path : Text) : quotePath (lowerDrive path) = quotePath path := by
  rw [quotePath_eq, cutDrive_lowerDrive, ← quotePath_eq]

theorem isKept_of_mem_cutDrive {path : Text} :
    ∀ c ∈ (cutDrive path).1, Percent.isKept c = true ∨ c = ':' := by
  intro c hc
  by_cases h : Path.HasDrive path
  · obtain ⟨letter, rest, rfl, hl⟩ := h
    rw [cutDrive_cons hl] at hc
    simp only [List.mem_cons, List.not_mem_nil, or_false] at hc
    rcases hc with rfl | rfl | rfl
    · exact .inl rfl
    · exact .inl (isKept_toLower hl).1
    · exact .inr rfl
  · rw [cutDrive_of_no_drive h] at hc
    cases hc

theorem isPlain_of_mem_cutDrive {path : Text} : ∀ c ∈ (cutDrive path).1, Percent.isPlain c = true := by
  intro c hc
  rcases isKept_of_mem_cutDrive c hc with h | rfl
  · exact Percent.isPlain_of_isKept h
  · rfl

theorem singleRoot_quotePath {path : Text} (h : Path.SingleRoot path) :
    Path.SingleRoot (quotePath path) := by
  obtain ⟨rest, rfl, hrest⟩ := h
  by_cases hd : Path.HasDrive ('/' :: rest)
  · obtain ⟨letter, rest, he, hl⟩ := hd
    rw [he, quotePath_eq, cutDrive_cons hl]
    exact ⟨_, rfl, by simpa using (isKept_toLower hl).2⟩
  · rw [quotePath_eq, cutDrive_of_no_drive hd, List.nil_append, Percent.quote_cons,
      Percent.quoteChar_of_isKept (by rfl)]
    exact ⟨_, rfl, fun hq => hrest (Percent.head?_quote_eq_slash_iff.1 hq)⟩

theorem singleRoot_lowerDrive {path : Text} (h : Path.SingleRoot path) :
    Path.SingleRoot (lowerDrive path) := by
  by_cases hd : Path.HasDrive path
  · obtain ⟨letter, rest, rfl, hl⟩ := hd
    rw [lowerDrive, cutDrive_cons hl]
    exact ⟨_, rfl, by simpa using (isKept_toLower hl).2⟩
  · rwa [lowerDrive, cutDrive_of_no_drive hd, List.nil_append]

/-- **The URI of an absolute path** is the coded path behind an empty authority. -/
theorem ofPath?_of_singleRoot {path : Text} (h : Path.SingleRoot path) :
    ofPath? path = .ok (written path) := by
  obtain ⟨rest, hq, hrest⟩ := singleRoot_quotePath h
  have hslashes : Text.after? "//".toList (quotePath path) = none := by
    rw [hq]
    rcases rest with _ | ⟨c, rest⟩
    · rfl
    · have hc : '/' ≠ c := fun hc => hrest (hc ▸ rfl)
      simp [Text.after?, hc]
  have hhost : cutHost? path = .ok ([], path) ∧ rooted path = path := by
    obtain ⟨rest, rfl, hrest⟩ := h
    refine ⟨?_, rfl⟩
    rcases rest with _ | ⟨c, rest⟩
    · rfl
    · have hc : c ≠ '/' := fun hc => hrest (hc ▸ rfl)
      simp [cutHost?, hc]
  simp only [ofPath?, hhost.1, hhost.2, hslashes]
  rfl

theorem isInert_of_isKept {c : Char} (h : Percent.isKept c = true) : Uri.isInert c = true := by
  have hall : ∀ n < 0x80, Percent.isKept (Char.ofNat n) = true →
      Uri.isInert (Char.ofNat n) = true := by decide
  have hplain := Percent.isPlain_of_isKept h
  simp only [Percent.isPlain, Bool.and_eq_true] at hplain
  exact Text.of_isAscii (p := fun c => Percent.isKept c = true → Uri.isInert c = true)
    hall hplain.1 h

theorem isInert_of_mem_quotePath {path : Text} : ∀ c ∈ quotePath path, Uri.isInert c = true := by
  intro c hc
  rw [quotePath_eq] at hc
  rcases List.mem_append.1 hc with hc | hc
  · rcases isKept_of_mem_cutDrive c hc with h | rfl
    · exact isInert_of_isKept h
    · rfl
  · rcases Percent.isKept_of_mem_quote hc with h | rfl
    · exact isInert_of_isKept h
    · rfl

theorem split?_written {path : Text} (h : Path.SingleRoot path) :
    Uri.split? (written path) = .ok ⟨scheme, [], quotePath path, [], []⟩ :=
  Uri.split?_of_path (by decide) (singleRoot_quotePath h).head?_eq isInert_of_mem_quotePath

theorem unquote_append_quotePath {s : Text} (hs : ∀ c ∈ s, Percent.isPlain c = true) (path : Text) :
    Percent.unquote (s ++ quotePath path) = s ++ lowerDrive path := by
  rw [quotePath_eq, ← List.append_assoc, Percent.unquote_append_quote, List.append_assoc]
  · rfl
  · intro c hc
    rcases List.mem_append.1 hc with hc | hc
    · exact hs c hc
    · exact isPlain_of_mem_cutDrive c hc

theorem unquote_quotePath (path : Text) : Percent.unquote (quotePath path) = lowerDrive path :=
  unquote_append_quotePath (s := []) (fun _ hc => nomatch hc) path

theorem unquote_written (path : Text) :
    Percent.unquote (written path) = scheme ++ "://".toList ++ lowerDrive path := by
  have hplain : (scheme ++ "://".toList).all Percent.isPlain = true := by decide
  exact unquote_append_quotePath (List.all_eq_true.1 hplain) path

/-- **The path comes back from its URI**, a drive letter apart. -/
theorem toPath?_written {path : Text} (h : Path.SingleRoot path) (hd : ¬ Path.HasDrive path) :
    toPath? (written path) = .ok (some path) := by
  have hpath : lowerDrive path = path := by
    rw [lowerDrive, cutDrive_of_no_drive hd, List.nil_append]
  have hunquote : Percent.unquote (quotePath path) = path := by rw [unquote_quotePath, hpath]
  have hlocal : localPath [] path = path := by
    unfold localPath
    simp only [List.isEmpty_nil, Bool.not_true, Bool.false_and, Bool.false_eq_true, if_false]
    split
    · rename_i letter rest
      rw [if_neg fun hl => hd ⟨letter, rest, rfl, hl⟩]
    · rfl
  have hparameters : Uri.pathWithoutParameters ⟨scheme, [], quotePath path, [], []⟩ = quotePath path :=
    if_neg (show ¬ Uri.parameterSchemes.contains scheme = true by decide)
  have hauthority : Percent.unquote [] = [] := by decide
  simp only [toPath?, split?_written h, if_true, hparameters, hauthority, hunquote, hlocal]

/-- **Two paths do not share a URI.** -/
theorem written_inj {path other : Text} (h : Path.IsLocal path) (ho : Path.IsLocal other)
    (heq : written path = written other) : path = other := by
  have hpath := toPath?_written h.1 h.2
  rw [heq, toPath?_written ho.1 ho.2] at hpath
  exact (Option.some.inj (Except.ok.inj hpath)).symm

/-- The URI of a path names some path, also where a drive letter keeps that from being the same. -/
theorem exists_normalPath?_written {path : Text} (h : Path.SingleRoot path) :
    ∃ named, normalPath? (written path) = .ok named := by
  have hfile : Text.after? "file:".toList (written path) = some ("//".toList ++ quotePath path) :=
    Text.after?_append "file:".toList _
  simp only [normalPath?, hfile, toPath?, split?_written h, if_true, Option.isSome_some]
  exact ⟨_, rfl⟩

theorem normalPath?_written {path : Text} (h : Path.SingleRoot path) (hd : ¬ Path.HasDrive path) :
    normalPath? (written path) = .ok (normalizePath path) := by
  have hfile : Text.after? "file:".toList (written path) = some ("//".toList ++ quotePath path) :=
    Text.after?_append "file:".toList _
  have hne : path.isEmpty = false := by
    obtain ⟨rest, rfl, _⟩ := h
    rfl
  simp only [normalPath?, hfile, toPath?_written h hd, Option.isSome_some, if_true, Option.getD_some,
    hne, Bool.false_eq_true, if_false]

end FileUri
end JsonnetLens
