import JsonnetLens.Text.Entity
import Mathlib.Data.List.Basic
/-!
# Escaped texts hold no markup and lose nothing

An escaped text has no character of markup, and an ampersand in it only begins one of the five
entities (`holdsNoMarkup_escape`).  Putting the entities back gives the text that was escaped
(`unescape_escape`), so texts that differ are escaped differently.  Escaping character by character is
replacing one mark after the other in the whole text, as long as the ampersand comes first
(`escape_eq_replace`).
-/
namespace JsonnetLens.Entity

/-- The characters that are written as entities. -/
def marks : List Char := ['&', '<', '>', '"', '\'']

/-- The entities that are written, each for the mark in its place. -/
def entities : List Text :=
  ["&amp;".toList, "&lt;".toList, "&gt;".toList, "&quot;".toList, "&#x27;".toList]

/-- A text that cannot be taken for markup. -/
structure HoldsNoMarkup (t : Text) : Prop where
  mark : ∀ c ∈ ['<', '>', '"', '\''], c ∉ t
  ampersand : ∀ rest, '&' :: rest <:+ t → ∃ e ∈ entities, e <+: '&' :: rest

theorem escapeChar_of_not_mem {c : Char} (h : c ∉ marks) : escapeChar c = [c] := by
  simp only [marks, List.mem_cons, List.not_mem_nil, or_false, not_or] at h
  obtain ⟨hamp, hlt, hgt, hquot, hapos⟩ := h
  unfold escapeChar
  split <;> first | contradiction | rfl

theorem escape_cons (c : Char) (t : Text) : escape (c :: t) = escapeChar c ++ escape t := rfl

/-! ## Reading back -/

theorem unescape_cons {c : Char} (h : c ≠ '&') (rest : Text) : unescape (c :: rest) = c :: unescape rest := by
  rw [unescape]
  all_goals exact fun _ hc _ => h hc

theorem unescape_escapeChar (c : Char) (rest : Text) :
    unescape (escapeChar c ++ rest) = c :: unescape rest := by
  by_cases h : c ∈ marks
  · simp only [marks, List.mem_cons, List.not_mem_nil, or_false] at h
    rcases h with rfl | rfl | rfl | rfl | rfl <;> rfl
  · have hamp : c ≠ '&' := fun hc => h (hc ▸ List.mem_cons_self)
    rw [escapeChar_of_not_mem h, List.singleton_append, unescape_cons hamp]

/-- **Putting the entities back gives the text that was escaped.** -/
theorem unescape_escape (t : Text) : unescape (escape t) = t := by
  induction t with
  | nil => rfl
  | cons c t ih => rw [escape_cons, unescape_escapeChar, ih]

theorem escape_injective {s t : Text} (h : escape s = escape t) : s = t := by
  rw [← unescape_escape s, h, unescape_escape]

/-! ## No markup -/

theorem not_mem_escapeChar {d : Char} (hd : d ∈ ['<', '>', '"', '\'']) (c : Char) : d ∉ escapeChar c := by
  have hmarks : (marks.all fun c => ['<', '>', '"', '\''].all (· ∉ escapeChar c)) = true := by decide
  by_cases hc : c ∈ marks
  · exact of_decide_eq_true (List.all_eq_true.1 (List.all_eq_true.1 hmarks c hc) d hd)
  · have hmark : d ∈ marks := List.mem_cons_of_mem _ hd
    rw [escapeChar_of_not_mem hc, List.mem_singleton]
    exact fun he => hc (he ▸ hmark)

/-- A mark is written as an entity, which has no ampersand but the one that begins it. -/
theorem escapeChar_of_mem {c : Char} (h : c ∈ marks) : escapeChar c ∈ entities ∧
    escapeChar c = '&' :: (escapeChar c).tail ∧ '&' ∉ (escapeChar c).tail := by
  simp only [marks, List.mem_cons, List.not_mem_nil, or_false] at h
  rcases h with rfl | rfl | rfl | rfl | rfl <;> decide

theorem suffix_of_not_mem {c : Char} {s t rest : Text} (hc : c ∉ s) (h : c :: rest <:+ s ++ t) :
    c :: rest <:+ t := by
  induction s with
  | nil => exact h
  | cons d s ih =>
    rcases List.suffix_cons_iff.1 h with he | h
    · obtain ⟨rfl, -⟩ := List.cons.inj he
      exact absurd List.mem_cons_self hc
    · exact ih (fun hmem => hc (List.mem_cons_of_mem _ hmem)) h

/-- An ampersand in what is written for a character begins an entity, or stands in what follows. -/
theorem ampersand_escapeChar {c : Char} {t rest : Text} (h : '&' :: rest <:+ escapeChar c ++ t) :
    (∃ e ∈ entities, e <+: '&' :: rest) ∨ '&' :: rest <:+ t := by
  by_cases hc : c ∈ marks
  · obtain ⟨hentity, hwritten, htail⟩ := escapeChar_of_mem hc
    have hsuffix : '&' :: rest <:+ '&' :: ((escapeChar c).tail ++ t) := by
      rwa [hwritten, List.cons_append] at h
    rcases List.suffix_cons_iff.1 hsuffix with he | hsuffix
    · refine .inl ⟨escapeChar c, hentity, t, ?_⟩
      rw [he, ← List.cons_append, ← hwritten]
    · exact .inr (suffix_of_not_mem htail hsuffix)
  · rw [escapeChar_of_not_mem hc] at h
    refine .inr (suffix_of_not_mem (fun hmem => hc ?_) h)
    rw [← List.mem_singleton.1 hmem]
    exact List.mem_cons_self

theorem HoldsNoMarkup.escapeChar_append {t : Text} (h : HoldsNoMarkup t) (c : Char) :
    HoldsNoMarkup (escapeChar c ++ t) where
  mark d hd hmem := (List.mem_append.1 hmem).elim (not_mem_escapeChar hd c) (h.mark d hd)
  ampersand rest hrest := (ampersand_escapeChar hrest).elim id (h.ampersand rest)

/-- **An escaped text holds no markup.** -/
theorem holdsNoMarkup_escape (t : Text) : HoldsNoMarkup (escape t) := by
  induction t with
  | nil => exact ⟨fun _ _ => List.not_mem_nil, fun _ h => absurd (List.suffix_nil.1 h) (List.cons_ne_nil _ _)⟩
  | cons c t ih => exact ih.escapeChar_append c

/-! ## One mark after the other -/

/-- The text with each occurrence of a character replaced. -/
def replace (old : Char) (new t : Text) : Text := t.flatMap fun c => if c = old then new else [c]

theorem replace_append (old : Char) (new s t : Text) :
    replace old new (s ++ t) = replace old new s ++ replace old new t := List.flatMap_append

/-- **Escaping replaces the five marks one after the other**, the ampersand before those whose entities
begin with one. -/
theorem escape_eq_replace (t : Text) :
    escape t = replace '\'' "&#x27;".toList (replace '"' "&quot;".toList (replace '>' "&gt;".toList
      (replace '<' "&lt;".toList (replace '&' "&amp;".toList t)))) := by
  induction t with
  | nil => rfl
  | cons c t ih =>
    have hcons : c :: t = [c] ++ t := rfl
    rw [escape_cons, ih, hcons]
    simp only [replace_append]
    congr 1
    by_cases h : c ∈ marks
    · simp only [marks, List.mem_cons, List.not_mem_nil, or_false] at h
      rcases h with rfl | rfl | rfl | rfl | rfl <;> decide
    · have hreplace : ∀ old ∈ marks, ∀ new, replace old new [c] = [c] := by
        intro old hold new
        have hne : c ≠ old := fun he => h (he ▸ hold)
        simp [replace, hne]
      rw [escapeChar_of_not_mem h, hreplace '&' (by decide), hreplace '<' (by decide),
        hreplace '>' (by decide), hreplace '"' (by decide), hreplace '\'' (by decide)]

end JsonnetLens.Entity
