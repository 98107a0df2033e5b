import JsonnetLens.Source.Span
import JsonnetLens.Source.Frame
import JsonnetLens.Proofs.Text.Cuts
/-!
# Locations are read as they are written

A span in one of the four notations is read back (`take?_append`), unless it can be read on past a
colon; what is read is there, in one of the notations (`take?_eq_some`).  A frame gives its file when
the name begins with no blank and has no colon.
-/
namespace JsonnetLens

namespace Text

/-- The code points of the blank characters. -/
def blanks : List Nat :=
  [9, 10, 11, 12, 13, 28, 29, 30, 31, 32, 0x85, 0xA0, 0x1680, 0x2000, 0x2001, 0x2002, 0x2003, 0x2004,
    0x2005, 0x2006, 0x2007, 0x2008, 0x2009, 0x200A, 0x2028, 0x2029, 0x202F, 0x205F, 0x3000]

theorem mem_blanks {c : Char} (h : isBlank c = true) : c.toNat ∈ blanks := by
  simp only [isBlank, Bool.or_eq_true, Bool.and_eq_true, decide_eq_true_eq] at h
  simp only [blanks, List.mem_cons, List.not_mem_nil, or_false]
  omega

theorem isDigit_of_isBlank {c : Char} (h : isBlank c = true) : isDigit c = false := by
  have hall : ∀ n ∈ blanks, isDigit (Char.ofNat n) = false := by decide +kernel
  have hc := hall c.toNat (mem_blanks h)
  rwa [Char.ofNat_toNat] at hc

end Text

namespace RangeText

def isNumber (t : Text) : Bool := !t.isEmpty && t.all Text.isDigit

/-- A span as it can be written. -/
def isWritten (r : RangeText) : Bool :=
  isNumber r.fields.1 && isNumber r.fields.2.1 && isNumber r.fields.2.2.1 && isNumber r.fields.2.2.2

theorem all_isDigit_of_isNumber {t : Text} (h : isNumber t = true) : t.all Text.isDigit = true := by
  simp only [isNumber, Bool.and_eq_true] at h
  exact h.2

theorem exists_cons_of_isNumber {t : Text} (h : isNumber t = true) :
    ∃ d t', t = d :: t' ∧ Text.isDigit d = true := by
  have hall := all_isDigit_of_isNumber h
  cases t with
  | nil => cases h
  | cons d t =>
    rw [List.all_cons, Bool.and_eq_true] at hall
    exact ⟨d, t, rfl, hall.1⟩

theorem takeDigits?_append {d rest : Text} (hd : isNumber d = true)
    (hrest : rest.head?.all (!Text.isDigit ·) = true) : takeDigits? (d ++ rest) = some (d, rest) := by
  simp only [isNumber, Bool.and_eq_true, Bool.not_eq_true'] at hd
  obtain ⟨htake, hdrop⟩ := Text.takeWhile_append_of_all (List.all_eq_true.1 hd.2) hrest
  simp only [takeDigits?, htake, hdrop, hd.1, Bool.false_eq_true, if_false]

theorem takePair?_append {l c rest : Text} (hl : isNumber l = true) (hc : isNumber c = true)
    (hrest : rest.head?.all (!Text.isDigit ·) = true) :
    takePair? (l ++ ':' :: (c ++ rest)) = some (l, c, rest) := by
  have hcolon : (':' :: (c ++ rest)).head?.all (!Text.isDigit ·) = true := by
    rw [List.head?_cons]
    decide
  simp only [takePair?, takeDigits?_append hl hcolon, takeDigits?_append hc hrest, Option.map_some]

theorem takeDigits?_eq_some {t d rest : Text} (h : takeDigits? t = some (d, rest)) :
    t = d ++ rest ∧ isNumber d = true ∧ rest.head?.all (!Text.isDigit ·) = true := by
  unfold takeDigits? at h
  by_cases hempty : (t.takeWhile Text.isDigit).isEmpty = true
  · simp [hempty] at h
  simp only [hempty, Bool.false_eq_true, if_false, Option.some.injEq, Prod.mk.injEq] at h
  obtain ⟨rfl, rfl⟩ := h
  refine ⟨List.takeWhile_append_dropWhile.symm, ?_, ?_⟩
  · have hall : (t.takeWhile Text.isDigit).all Text.isDigit = true := List.all_takeWhile
    simp [isNumber, hempty, hall]
  · have hhead := List.head?_dropWhile_not Text.isDigit t
    cases hd : (t.dropWhile Text.isDigit).head? with
    | none => rfl
    | some c =>
      rw [hd] at hhead
      simpa using hhead

theorem takePair?_eq_some {t l c rest : Text} (h : takePair? t = some (l, c, rest)) :
    t = l ++ ':' :: (c ++ rest) ∧ isNumber l = true ∧ isNumber c = true ∧
      rest.head?.all (!Text.isDigit ·) = true := by
  unfold takePair? at h
  split at h
  · rename_i line t' hline
    obtain ⟨⟨column, rest'⟩, hcolumn, he⟩ := Option.map_eq_some_iff.1 h
    simp only [Prod.mk.injEq] at he
    obtain ⟨rfl, rfl, rfl⟩ := he
    obtain ⟨rfl, hl, _⟩ := takeDigits?_eq_some hline
    obtain ⟨rfl, hc, hrest⟩ := takeDigits?_eq_some hcolumn
    exact ⟨rfl, hl, hc, hrest⟩
  · cases h

theorem ended_eq_some {r r' : RangeText} {rest rest' : Text} (h : ended r rest = some (r', rest')) :
    r = r' ∧ rest = rest' ∧ isEnd rest = true := by
  unfold ended at h
  by_cases hend : isEnd rest = true
  · rw [if_pos hend, Option.some.injEq, Prod.mk.injEq] at h
    exact ⟨h.1, h.2, hend⟩
  · rw [if_neg hend] at h
    cases h

/-- A line and a column are read on from a column alone, when a colon and digits follow it. -/
theorem takePair?_of_digits {d rest l c rest' : Text} (hd : takeDigits? (d ++ rest) = some (d, rest))
    (h : takePair? (d ++ rest) = some (l, c, rest')) : l = d ∧ rest = ':' :: (c ++ rest') := by
  unfold takePair? at h
  rw [hd] at h
  split at h
  · rename_i line t' hline
    simp only [Option.some.injEq, Prod.mk.injEq] at hline
    obtain ⟨rfl, rfl⟩ := hline
    obtain ⟨⟨column, rest''⟩, hcolumn, he⟩ := Option.map_eq_some_iff.1 h
    simp only [Prod.mk.injEq] at he
    obtain ⟨rfl, rfl, rfl⟩ := he
    rw [(takeDigits?_eq_some hcolumn).1]
    exact ⟨rfl, rfl⟩
  · cases h

/-- What may follow a span in any notation.  A colon and a digit would go on with the span. -/
def isStop : Text → Bool
  | ':' :: rest => rest.head?.all (!Text.isDigit ·)
  | rest => isEnd rest

theorem isEnd_of_isStop {rest : Text} (h : isStop rest = true) : isEnd rest = true := by
  unfold isStop at h
  split at h
  · rfl
  · exact h

theorem isDigit_of_isEnd {rest : Text} (h : isEnd rest = true) :
    rest.head?.all (!Text.isDigit ·) = true := by
  cases rest with
  | nil => rfl
  | cons c rest =>
    have hdigit : Text.isDigit c = false := by
      simp only [isEnd, Bool.or_eq_true, decide_eq_true_eq] at h
      rcases h with rfl | h
      · decide
      · exact Text.isDigit_of_isBlank h
    simp [hdigit]

theorem ne_parenthesis_of_takePair? {t : Text} {found : Text × Text × Text}
    (h : takePair? t = some found) (rest : Text) : t ≠ '(' :: rest := by
  rintro rfl
  have hparen : Text.isDigit '(' = false := by decide
  simp [takePair?, takeDigits?, hparen] at h

theorem take?_of_minus {t l c rest : Text} (h : takePair? t = some (l, c, '-' :: rest)) :
    take? t = takeLast? l c rest := by
  unfold take?
  split
  · exact absurd rfl (ne_parenthesis_of_takePair? h _)
  · rw [h]
    rfl

theorem take?_of_point {t l c rest : Text} (h : takePair? t = some (l, c, rest))
    (hrest : rest.head? ≠ some '-') : take? t = ended (point l c) rest := by
  unfold take?
  split
  · exact absurd rfl (ne_parenthesis_of_takePair? h _)
  · rw [h]
    rcases rest with _ | ⟨d, rest⟩
    · rfl
    · have hd : d ≠ '-' := by simpa using hrest
      simp [hd]

/-- Before what may follow it a notation is read back, unless it ends in a column alone that a colon
and one more number follow, and these lead to an end as well. -/
theorem take?_append {r : RangeText} (hr : r.isWritten = true) {rest : Text} (hend : isEnd rest = true) :
    take? (r.text ++ rest) = some (r, rest) ∨ ∃ l c c' d rest', r = within l c c' ∧
      rest = ':' :: (d ++ rest') ∧ isNumber d = true ∧
      take? (r.text ++ rest) = some (across l c c' d, rest') := by
  have hdigit := isDigit_of_isEnd hend
  have hminus : ∀ t : Text, ('-' :: t).head?.all (!Text.isDigit ·) = true := by
    intro t
    rw [List.head?_cons]
    decide
  have hclose : ∀ t : Text, (')' :: t).head?.all (!Text.isDigit ·) = true := by
    intro t
    rw [List.head?_cons]
    decide
  cases r with
  | point l c =>
    simp only [isWritten, fields, Bool.and_eq_true] at hr
    have htext : (point l c).text ++ rest = l ++ ':' :: (c ++ rest) := by simp [text]
    have hrest : rest.head? ≠ some '-' := by
      rcases rest with _ | ⟨d, rest⟩
      · simp
      · intro hd
        obtain rfl : d = '-' := by simpa using hd
        rw [isEnd] at hend
        exact absurd hend (by decide)
    left
    rw [htext, take?_of_point (takePair?_append hr.1.1.1 hr.1.1.2 hdigit) hrest, ended, if_pos hend]
  | within l c c' =>
    simp only [isWritten, fields, Bool.and_eq_true] at hr
    have htext : (within l c c').text ++ rest = l ++ ':' :: (c ++ '-' :: (c' ++ rest)) := by simp [text]
    have hcolumn := takeDigits?_append hr.2 hdigit
    rw [htext, take?_of_minus (takePair?_append hr.1.1.1 hr.1.1.2 (hminus _))]
    -- a line and a column are looked for first
    simp only [takeLast?, hcolumn]
    rcases hpair : takePair? (c' ++ rest) with _ | ⟨l', d, rest'⟩
    · simp [ended, hend]
    · obtain ⟨rfl, hrest⟩ := takePair?_of_digits hcolumn hpair
      obtain ⟨_, _, hd, _⟩ := takePair?_eq_some hpair
      by_cases hend' : isEnd rest' = true
      · right
        exact ⟨l, c, l', d, rest', rfl, hrest, hd, by simp [ended, hend']⟩
      · left
        simp [ended, hend, hend']
  | across l c l' c' =>
    simp only [isWritten, fields, Bool.and_eq_true] at hr
    have htext : (across l c l' c').text ++ rest =
        l ++ ':' :: (c ++ '-' :: (l' ++ ':' :: (c' ++ rest))) := by simp [text]
    have hcolon : (':' :: (c' ++ rest)).head?.all (!Text.isDigit ·) = true := by
      rw [List.head?_cons]
      decide
    left
    rw [htext, take?_of_minus (takePair?_append hr.1.1.1 hr.1.1.2 (hminus _))]
    simp only [takeLast?, takeDigits?_append hr.1.2 hcolon, takePair?_append hr.1.2 hr.2 hdigit,
      Option.bind_some, ended, hend, if_true]
  | parenthesized l c l' c' =>
    simp only [isWritten, fields, Bool.and_eq_true] at hr
    have htext : (parenthesized l c l' c').text ++ rest =
        '(' :: (l ++ ':' :: (c ++ ')' :: '-' :: '(' :: (l' ++ ':' :: (c' ++ ')' :: rest)))) := by
      simp [text]
    left
    simp only [htext, take?, takeParenthesized?, takePair?_append hr.1.1.1 hr.1.1.2 (hclose _),
      takePair?_append hr.1.2 hr.2 (hclose _), ended, hend, if_true]

/-- **Every notation is read back.** -/
theorem take?_text {r : RangeText} (hr : r.isWritten = true) {rest : Text} (hstop : isStop rest = true) :
    take? (r.text ++ rest) = some (r, rest) := by
  rcases take?_append hr (isEnd_of_isStop hstop) with h | ⟨l, c, c', d, rest', _, rfl, hd, _⟩
  · exact h
  · exfalso
    have hhead : (d ++ rest').head?.all (!Text.isDigit ·) = true := hstop
    obtain ⟨e, d, rfl, he⟩ := exists_cons_of_isNumber hd
    simp [he] at hhead

/-! ## What is read -/

theorem takeParenthesized?_eq_some {t rest : Text} {r : RangeText}
    (h : takeParenthesized? t = some (r, rest)) :
    '(' :: t = r.text ++ rest ∧ r.isWritten = true ∧ isEnd rest = true := by
  unfold takeParenthesized? at h
  split at h
  · rename_i l c t' hfirst
    split at h
    · rename_i l' c' t'' hlast
      obtain ⟨rfl, hl, hc, _⟩ := takePair?_eq_some hfirst
      obtain ⟨rfl, hl', hc', _⟩ := takePair?_eq_some hlast
      obtain ⟨rfl, rfl, hend⟩ := ended_eq_some h
      exact ⟨by simp [text], by simp [isWritten, fields, hl, hc, hl', hc'], hend⟩
    · cases h
  · cases h

theorem takeLast?_eq_some {l c t rest : Text} {r : RangeText} (hl : isNumber l = true)
    (hc : isNumber c = true) (h : takeLast? l c t = some (r, rest)) :
    l ++ ':' :: (c ++ '-' :: t) = r.text ++ rest ∧ r.isWritten = true ∧ isEnd rest = true := by
  unfold takeLast? at h
  split at h
  · cases h
  rename_i d t' hd
  split at h
  · rename_i found hfound
    obtain ⟨⟨l', c', t''⟩, hpair, hended⟩ := Option.bind_eq_some_iff.1 hfound
    obtain rfl := Option.some.inj h
    obtain ⟨rfl, hl', hc', _⟩ := takePair?_eq_some hpair
    obtain ⟨rfl, rfl, hend⟩ := ended_eq_some hended
    exact ⟨by simp [text], by simp [isWritten, fields, hl, hc, hl', hc'], hend⟩
  · obtain ⟨rfl, hd, _⟩ := takeDigits?_eq_some hd
    obtain ⟨rfl, rfl, hend⟩ := ended_eq_some h
    exact ⟨by simp [text], by simp [isWritten, fields, hl, hc, hd], hend⟩

/-- **What is read is there**, in one of the notations, and ends there. -/
theorem take?_eq_some {t rest : Text} {r : RangeText} (h : take? t = some (r, rest)) :
    t = r.text ++ rest ∧ r.isWritten = true ∧ isEnd rest = true := by
  unfold take? at h
  split at h
  · exact takeParenthesized?_eq_some h
  split at h
  · rename_i l c t' hpair
    obtain ⟨rfl, hl, hc, _⟩ := takePair?_eq_some hpair
    exact takeLast?_eq_some hl hc h
  · rename_i l c t' _ hpair
    obtain ⟨rfl, hl, hc, _⟩ := takePair?_eq_some hpair
    obtain ⟨rfl, rfl, hend⟩ := ended_eq_some h
    exact ⟨by simp [text], by simp [isWritten, fields, hl, hc], hend⟩
  · cases h

/-! ## What leads to a span -/

theorem exists_head_text {r : RangeText} (hr : r.isWritten = true) (rest : Text) :
    ∃ c t, r.text ++ rest = c :: t ∧ Text.isBlank c = false ∧ c ≠ ':' := by
  simp only [isWritten, Bool.and_eq_true] at hr
  have hnumber : ∀ t : Text, isNumber t = true →
      ∃ d t', t = d :: t' ∧ Text.isBlank d = false ∧ d ≠ ':' := by
    intro t h
    obtain ⟨d, t, rfl, hdigit⟩ := exists_cons_of_isNumber h
    refine ⟨d, t, rfl, ?_, ?_⟩
    · by_contra hb
      rw [Text.isDigit_of_isBlank (by simpa using hb)] at hdigit
      cases hdigit
    · rintro rfl
      exact absurd hdigit (by decide)
  obtain ⟨d, l, hl, hblank, hcolon⟩ := hnumber _ hr.1.1.1
  cases r with
  | parenthesized => exact ⟨_, _, rfl, by decide, by decide⟩
  | _ =>
    cases hl
    exact ⟨_, _, rfl, hblank, hcolon⟩

/-- What may stand before a span, blanks apart. -/
def IsLead (t : Text) : Prop := t = [] ∨ t = [':']

/-- **The colon and the blanks before a span are told from it and from each other.** -/
theorem cutLead {lead blanks : Text} (hlead : IsLead lead) (hblanks : ∀ c ∈ blanks, Text.isBlank c = true)
    {r : RangeText} (hr : r.isWritten = true) (rest : Text) :
    let t := lead ++ (blanks ++ (r.text ++ rest))
    lead = (if t.head? = some ':' then [':'] else []) ∧
      (Span.dropColon t).takeWhile Text.isBlank = blanks ∧
      (Span.dropColon t).dropWhile Text.isBlank = r.text ++ rest := by
  intro t
  obtain ⟨c, t', hspan, hblank, hcolon⟩ := exists_head_text hr rest
  have hhead : (r.text ++ rest).head?.all (!Text.isBlank ·) = true := by simp [hspan, hblank]
  have hcut := Text.takeWhile_append_of_all hblanks hhead
  have hcolonBlank : Text.isBlank ':' = false := by decide
  rcases hlead with rfl | rfl
  · -- neither a blank nor a span begins with a colon
    have hne : (blanks ++ (r.text ++ rest)).head? ≠ some ':' := by
      rw [hspan]
      cases blanks with
      | nil => simpa using hcolon
      | cons b blanks =>
        intro h
        obtain rfl : b = ':' := by simpa using h
        rw [hblanks ':' List.mem_cons_self] at hcolonBlank
        cases hcolonBlank
    have hdrop : Span.dropColon t = blanks ++ (r.text ++ rest) := by
      change Span.dropColon (blanks ++ (r.text ++ rest)) = _
      unfold Span.dropColon
      split
      · rename_i h
        rw [h] at hne
        exact absurd rfl hne
      · rfl
    exact ⟨(if_neg hne).symm, by rw [hdrop]; exact hcut⟩
  · exact ⟨rfl, hcut⟩

end RangeText

/-- A span in this notation, which is in order. -/
def RangeText.Denotes (r : RangeText) (span : Span) : Prop :=
  r.isWritten = true ∧ r.span = .ok span ∧ span.isProper = true

/-- **A span is found**, with or without a colon before it. -/
theorem Span.match?_text {r : RangeText} {span : Span} (h : r.Denotes span) {lead : Text}
    (hlead : RangeText.IsLead lead) {rest : Text} (hstop : RangeText.isStop rest = true) :
    Span.match? (lead ++ (r.text ++ rest)) = .ok (some (span, rest)) := by
  obtain ⟨hr, hspan, hproper⟩ := h
  have hnone : ∀ c ∈ ([] : Text), Text.isBlank c = true := nofun
  have hcut := (RangeText.cutLead hlead hnone hr rest).2.2
  rw [List.nil_append] at hcut
  simp only [match?, hcut, RangeText.take?_text hr hstop, hspan, hproper, if_true]

namespace Frame

/-- The name of a file as a frame can give it. -/
def isName (t : Text) : Bool := t.head?.any (!Text.isBlank ·) && !t.contains ':'

/-- **A frame is found with its file and what follows the colon.** -/
theorem match?_append {indent file : Text} (hindent : ∀ c ∈ indent, Text.isBlank c = true)
    (hfile : isName file = true) (rest : Text) :
    match? (indent ++ file ++ ':' :: rest) = some ⟨indent, file, rest⟩ := by
  simp only [isName, Bool.and_eq_true, Bool.not_eq_true', List.contains_eq_mem, decide_eq_false_iff_not]
    at hfile
  obtain ⟨hhead, hcolon⟩ := hfile
  rcases file with _ | ⟨c, file⟩
  · cases hhead
  have hc : Text.isBlank c = false := by simpa using hhead
  have hstop : (c :: file ++ ':' :: rest).head?.all (!Text.isBlank ·) = true := by simp [hc]
  obtain ⟨htake, hdrop⟩ := Text.takeWhile_append_of_all hindent hstop
  rw [List.append_assoc]
  simp only [match?, htake, hdrop, Text.cutFirst?_append hcolon]
  rfl

theorem isName_of_match? {line : Text} {frame : Frame} (h : match? line = some frame) :
    isName frame.file = true := by
  unfold match? at h
  simp only at h
  rcases hcut : Text.cutFirst? ':' (line.dropWhile Text.isBlank) with _ | ⟨file, rest⟩
  · rw [hcut] at h
    cases h
  rw [hcut] at h
  simp only at h
  obtain ⟨hline, hcolon⟩ := Text.cutFirst?_eq_some hcut
  rcases file with _ | ⟨c, file⟩
  · cases h
  obtain rfl := Option.some.inj h
  have hhead := List.head?_dropWhile_not Text.isBlank line
  have hc : Text.isBlank c = false := by simpa [hline] using hhead
  have hcontains : (c :: file).contains ':' = false := by simpa using hcolon
  simp only [isName, List.head?_cons, Option.any_some, hc, hcontains, Bool.not_false, Bool.and_self]

end Frame
end JsonnetLens
