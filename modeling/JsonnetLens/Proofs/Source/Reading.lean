import JsonnetLens.Proofs.Source.Limits
import JsonnetLens.Proofs.Source.Notation
/-!
# What is read at the front of a text

A text can be cut at a span in several ways, since a column that is followed by a colon may be the
end of the span or the line of a last spot.  Reading takes the longest span that a cut can have
(`front?_eq_some_iff`) and stands by it: when that span is not in order there is no other answer.
-/
namespace JsonnetLens

open RangeText (IsLead isEnd take? front?)

/-- A text as a colon that may lead, blanks, a span as it is written, and the rest. -/
structure Cut where
  lead : Text
  blanks : Text
  range : RangeText
  rest : Text
  deriving DecidableEq, Repr

namespace Cut

def text (c : Cut) : Text := c.lead ++ (c.blanks ++ (c.range.text ++ c.rest))

/-- The grammar of spans: what each part of a cut can be. -/
structure Fits (c : Cut) : Prop where
  lead : IsLead c.lead
  blanks : ∀ b ∈ c.blanks, Text.isBlank b = true
  range : c.range.isWritten = true
  rest : isEnd c.rest = true

/-- A cut of this text. -/
def Cuts (c : Cut) (t : Text) : Prop := c.Fits ∧ c.text = t

/-- A cut of this text whose span is the longest of all. -/
def IsLongest (c : Cut) (t : Text) : Prop :=
  c.Cuts t ∧ ∀ other : Cut, other.Cuts t → other.range.text.length ≤ c.range.text.length

end Cut

namespace RangeText

theorem text_injective {r r' : RangeText} (hr : r.isWritten = true) (hr' : r'.isWritten = true)
    (h : r.text = r'.text) : r = r' := by
  have hstop : isStop [] = true := rfl
  have hread := take?_text hr hstop
  have hread' := take?_text hr' hstop
  rw [← h, hread, Option.some.injEq, Prod.mk.injEq] at hread'
  exact hread'.1

/-- The longest cut is made at the front of the text. -/
theorem front?_text {c : Cut} (hc : c.Fits) : front? c.text = take? (c.range.text ++ c.rest) := by
  rw [front?, Cut.text, (cutLead hc.lead hc.blanks hc.range c.rest).2.2]

/-- What is read is at least as long as the span of any cut. -/
theorem exists_front? {c : Cut} {t : Text} (hc : c.Cuts t) :
    ∃ found, front? t = some found ∧ c.range.text.length ≤ found.1.text.length := by
  obtain ⟨hfits, rfl⟩ := hc
  rw [front?_text hfits]
  rcases take?_append hfits.range hfits.rest with h | ⟨l, col, last, d, rest, hwithin, _, _, h⟩
  · exact ⟨_, h, Nat.le_refl _⟩
  · refine ⟨_, h, ?_⟩
    rw [hwithin]
    simp only [text, List.length_append, List.length_cons]
    omega

theorem exists_lead (t : Text) : ∃ lead, IsLead lead ∧ lead ++ Span.dropColon t = t := by
  unfold Span.dropColon
  split
  · exact ⟨[':'], .inr rfl, rfl⟩
  · exact ⟨[], .inl rfl, rfl⟩

theorem cuts_of_front? {t rest : Text} {r : RangeText} (h : front? t = some (r, rest)) :
    ∃ c : Cut, c.Cuts t ∧ c.range = r ∧ c.rest = rest := by
  obtain ⟨htext, hr, hend⟩ := take?_eq_some h
  obtain ⟨lead, hlead, ht⟩ := exists_lead t
  refine ⟨⟨lead, (Span.dropColon t).takeWhile Text.isBlank, r, rest⟩, ⟨⟨hlead, ?_, hr, hend⟩, ?_⟩, rfl, rfl⟩
  · exact fun b hb => List.mem_takeWhile_imp hb
  · rw [Cut.text, ← htext, List.takeWhile_append_dropWhile, ht]

end RangeText

namespace Cut

/-- All cuts of a text have the same colon and the same blanks. -/
theorem Cuts.lead_eq {c c' : Cut} {t : Text} (h : c.Cuts t) (h' : c'.Cuts t) :
    c.lead = c'.lead ∧ c.blanks = c'.blanks ∧ c.range.text ++ c.rest = c'.range.text ++ c'.rest := by
  obtain ⟨hc, ht⟩ := h
  obtain ⟨hc', ht'⟩ := h'
  obtain ⟨hlead, hblanks, hspan⟩ := RangeText.cutLead hc.lead hc.blanks hc.range c.rest
  obtain ⟨hlead', hblanks', hspan'⟩ := RangeText.cutLead hc'.lead hc'.blanks hc'.range c'.rest
  rw [text] at ht ht'
  rw [ht] at hlead hblanks hspan
  rw [ht'] at hlead' hblanks' hspan'
  exact ⟨hlead.trans hlead'.symm, hblanks.symm.trans hblanks', hspan.symm.trans hspan'⟩

theorem Cuts.eq_of_length {c c' : Cut} {t : Text} (h : c.Cuts t) (h' : c'.Cuts t)
    (hlength : c.range.text.length = c'.range.text.length) : c = c' := by
  obtain ⟨hlead, hblanks, hspan⟩ := h.lead_eq h'
  obtain ⟨htext, hrest⟩ := List.append_inj hspan hlength
  have hrange := RangeText.text_injective h.1.range h'.1.range htext
  cases c
  cases c'
  simp_all

theorem IsLongest.unique {c c' : Cut} {t : Text} (h : c.IsLongest t) (h' : c'.IsLongest t) : c = c' :=
  h.1.eq_of_length h'.1 (Nat.le_antisymm (h'.2 c h.1) (h.2 c' h'.1))

theorem Cuts.isLongest {c : Cut} {t : Text} (h : c.Cuts t) (hfront : front? t = some (c.range, c.rest)) :
    c.IsLongest t := by
  refine ⟨h, fun other hother => ?_⟩
  obtain ⟨found, hfound, hle⟩ := RangeText.exists_front? hother
  rw [hfront, Option.some.injEq] at hfound
  rwa [← hfound] at hle

end Cut

/-- **Reading takes the longest span.** -/
theorem RangeText.front?_eq_some_iff {t rest : Text} {r : RangeText} :
    front? t = some (r, rest) ↔ ∃ c : Cut, c.IsLongest t ∧ c.range = r ∧ c.rest = rest := by
  constructor
  · intro h
    obtain ⟨c, hc, rfl, rfl⟩ := cuts_of_front? h
    exact ⟨c, hc.isLongest h, rfl, rfl⟩
  · rintro ⟨c, hc, rfl, rfl⟩
    obtain ⟨⟨r, rest⟩, hfound, hle⟩ := exists_front? hc.1
    obtain ⟨c', hc', rfl, rfl⟩ := cuts_of_front? hfound
    rw [hfound, hc'.eq_of_length hc.1 (Nat.le_antisymm (hc.2 c' hc') hle)]

theorem Cut.exists_isLongest {c : Cut} {t : Text} (h : c.Cuts t) : ∃ longest : Cut, longest.IsLongest t := by
  obtain ⟨⟨r, rest⟩, hfound, -⟩ := RangeText.exists_front? h
  obtain ⟨longest, hlongest, -, -⟩ := RangeText.front?_eq_some_iff.1 hfound
  exact ⟨longest, hlongest⟩

/-! ## Numbers -/

/-- No run of digits in the text is too long to be converted. -/
def Text.Convertible (t : Text) : Prop :=
  ∀ run, run <:+: t → run.all Text.isDigit = true → run.length ≤ Text.digitLimit

theorem RangeText.infix_of_mem_runs {r : RangeText} {run : Text} (h : run ∈ r.runs) : run <:+: r.text := by
  cases r with
  | point l c =>
    simp only [runs, fields, List.mem_cons, List.not_mem_nil, or_false] at h
    rcases h with rfl | rfl | rfl | rfl
    · exact ⟨[], ':' :: c, by simp [text]⟩
    · exact ⟨l ++ [':'], [], by simp [text]⟩
    · exact ⟨[], ':' :: c, by simp [text]⟩
    · exact ⟨l ++ [':'], [], by simp [text]⟩
  | within l c c' =>
    simp only [runs, fields, List.mem_cons, List.not_mem_nil, or_false] at h
    rcases h with rfl | rfl | rfl | rfl
    · exact ⟨[], ':' :: c ++ '-' :: c', by simp [text]⟩
    · exact ⟨l ++ [':'], '-' :: c', by simp [text]⟩
    · exact ⟨[], ':' :: c ++ '-' :: c', by simp [text]⟩
    · exact ⟨l ++ ':' :: c ++ ['-'], [], by simp [text]⟩
  | across l c l' c' =>
    simp only [runs, fields, List.mem_cons, List.not_mem_nil, or_false] at h
    rcases h with rfl | rfl | rfl | rfl
    · exact ⟨[], ':' :: c ++ '-' :: l' ++ ':' :: c', by simp [text]⟩
    · exact ⟨l ++ [':'], '-' :: l' ++ ':' :: c', by simp [text]⟩
    · exact ⟨l ++ ':' :: c ++ ['-'], ':' :: c', by simp [text]⟩
    · exact ⟨l ++ ':' :: c ++ '-' :: l' ++ [':'], [], by simp [text]⟩
  | parenthesized l c l' c' =>
    simp only [runs, fields, List.mem_cons, List.not_mem_nil, or_false] at h
    rcases h with rfl | rfl | rfl | rfl
    · exact ⟨['('], ':' :: c ++ ")-(".toList ++ l' ++ ':' :: c' ++ [')'], by simp [text]⟩
    · exact ⟨'(' :: l ++ [':'], ")-(".toList ++ l' ++ ':' :: c' ++ [')'], by simp [text]⟩
    · exact ⟨'(' :: l ++ ':' :: c ++ ")-(".toList, ':' :: c' ++ [')'], by simp [text]⟩
    · exact ⟨'(' :: l ++ ':' :: c ++ ")-(".toList ++ l' ++ [':'], [')'], by simp [text]⟩

theorem RangeText.all_isDigit_of_mem_runs {r : RangeText} (hr : r.isWritten = true) {run : Text}
    (h : run ∈ r.runs) : run.all Text.isDigit = true := by
  simp only [isWritten, Bool.and_eq_true] at hr
  simp only [runs, List.mem_cons, List.not_mem_nil, or_false] at h
  rcases h with rfl | rfl | rfl | rfl
  · exact all_isDigit_of_isNumber hr.1.1.1
  · exact all_isDigit_of_isNumber hr.1.1.2
  · exact all_isDigit_of_isNumber hr.1.2
  · exact all_isDigit_of_isNumber hr.2

theorem Cut.Cuts.isLong_eq_false {c : Cut} {t : Text} (h : c.Cuts t) (ht : t.Convertible) :
    c.range.isLong = false := by
  obtain ⟨hfits, rfl⟩ := h
  have hrange : c.range.text <:+: c.text :=
    ⟨c.lead ++ c.blanks, c.rest, by simp [Cut.text]⟩
  rw [RangeText.isLong, List.any_eq_false]
  intro run hrun
  have hle := ht run ((RangeText.infix_of_mem_runs hrun).trans hrange)
    (RangeText.all_isDigit_of_mem_runs hfits.range hrun)
  simp only [decide_eq_true_eq]
  omega

/-- All numbers count from one, and the last spot is not before the first. -/
def Span.InOrder (s : Span) : Prop :=
  1 ≤ s.first.line ∧ 1 ≤ s.first.column ∧ 1 ≤ s.last.line ∧ 1 ≤ s.last.column ∧
    (s.first.line < s.last.line ∨ s.first.line = s.last.line ∧ s.first.column ≤ s.last.column)

theorem Span.match?_of_isLongest {c : Cut} {t : Text} (h : c.IsLongest t) (ht : t.Convertible) :
    Span.match? t = .ok (if c.range.value.isProper then some (c.range.value, c.rest) else none) := by
  have hfront : front? t = some (c.range, c.rest) := RangeText.front?_eq_some_iff.2 ⟨c, h, rfl, rfl⟩
  rw [front?] at hfront
  simp only [Span.match?, hfront, RangeText.span_eq_ok (h.1.isLong_eq_false ht)]

theorem Span.match?_of_not_cuts {t : Text} (h : ∀ c : Cut, ¬ c.Cuts t) : Span.match? t = .ok none := by
  have hfront : front? t = none := by
    by_contra hne
    obtain ⟨⟨r, rest⟩, hsome⟩ := Option.ne_none_iff_exists'.1 hne
    obtain ⟨c, hc, -, -⟩ := RangeText.cuts_of_front? hsome
    exact h c hc
  rw [front?] at hfront
  simp only [Span.match?, hfront]

/-- **A span is read just when the longest one at the front of a text is in order.**  Then the
answer has its numbers, the file that was given and the rest of the text; otherwise there is none, and
no shorter span is tried.  A text has at most one longest cut. -/
theorem FileSpan.match?_longest {t : Text} (ht : t.Convertible) (file : Text) :
    ((∃ found, match? file t = .ok (some found)) ↔
      ∃ c : Cut, c.IsLongest t ∧ c.range.value.InOrder) ∧
    (∀ c : Cut, c.IsLongest t →
      (c.range.value.InOrder → match? file t = .ok (some (⟨file, c.range.value⟩, c.rest))) ∧
      (¬ c.range.value.InOrder → match? file t = .ok none)) ∧
    ((∀ c : Cut, ¬ c.Cuts t) → match? file t = .ok none) ∧
    ((∃ c : Cut, c.Cuts t) → ∃! c : Cut, c.IsLongest t) := by
  have hlongest : ∀ c : Cut, c.IsLongest t →
      (c.range.value.InOrder → match? file t = .ok (some (⟨file, c.range.value⟩, c.rest))) ∧
      (¬ c.range.value.InOrder → match? file t = .ok none) := by
    intro c hc
    rw [match?, Span.match?_of_isLongest hc ht]
    refine ⟨fun horder => ?_, fun horder => ?_⟩
    · rw [if_pos (Span.isProper_iff.2 horder)]
      rfl
    · rw [if_neg (mt Span.isProper_iff.1 horder)]
      rfl
  have hnone : (∀ c : Cut, ¬ c.Cuts t) → match? file t = .ok none := by
    intro h
    rw [match?, Span.match?_of_not_cuts h]
    rfl
  refine ⟨⟨?_, ?_⟩, hlongest, hnone, ?_⟩
  · rintro ⟨found, hfound⟩
    obtain ⟨c, hc⟩ : ∃ c : Cut, c.Cuts t := by
      by_contra h
      rw [hnone (not_exists.1 h)] at hfound
      cases hfound
    obtain ⟨longest, h⟩ := Cut.exists_isLongest hc
    refine ⟨longest, h, ?_⟩
    by_contra horder
    rw [(hlongest longest h).2 horder] at hfound
    cases hfound
  · rintro ⟨c, hc, horder⟩
    exact ⟨_, (hlongest c hc).1 horder⟩
  · rintro ⟨c, hc⟩
    obtain ⟨longest, h⟩ := Cut.exists_isLongest hc
    exact ⟨longest, h, fun other hother => hother.unique h⟩

/-- Where a second column does not end a span the first one does, and where it does and is zero there
is no answer, though the shorter span would be in order. -/
theorem FileSpan.match?_longest_column :
    let file := "a.jsonnet".toList
    let shorter : RangeText := .within ['3'] ['1'] "10".toList
    let longer : RangeText := .across ['3'] ['1'] "10".toList ['0']
    let t : Text := ": 3:1-10:5x".toList
    let zero : Text := "3:1-10:0\t".toList
    (t.Convertible ∧ (⟨[':'], [' '], shorter, ":5x".toList⟩ : Cut).IsLongest t ∧
      match? file t = .ok (some (⟨file, ⟨⟨3, 1⟩, ⟨3, 10⟩⟩⟩, ":5x".toList))) ∧
    (zero.Convertible ∧ (⟨[], [], longer, ['\t']⟩ : Cut).IsLongest zero ∧
      (⟨[], [], shorter, ":0\t".toList⟩ : Cut).Cuts zero ∧ match? file zero = .ok none) := by
  intro file shorter longer t zero
  have hshort : ∀ text : Text, text.length ≤ Text.digitLimit → text.Convertible :=
    fun text hle run hrun _ => Nat.le_trans hrun.length_le hle
  have ht : t.Convertible := hshort t (by decide)
  have hzero : zero.Convertible := hshort zero (by decide)
  have hcut : (⟨[':'], [' '], shorter, ":5x".toList⟩ : Cut).IsLongest t :=
    Cut.Cuts.isLongest ⟨⟨.inr rfl, List.all_eq_true.1 rfl, rfl, rfl⟩, rfl⟩ (by decide)
  have hcut0 : (⟨[], [], longer, ['\t']⟩ : Cut).IsLongest zero :=
    Cut.Cuts.isLongest ⟨⟨.inl rfl, List.forall_mem_nil _, rfl, rfl⟩, rfl⟩ (by decide)
  have horder : shorter.value.InOrder := by
    unfold Span.InOrder
    decide
  have horder0 : ¬ longer.value.InOrder := by
    unfold Span.InOrder
    decide
  exact ⟨⟨ht, hcut, ((match?_longest ht file).2.1 _ hcut).1 horder⟩,
    hzero, hcut0, ⟨⟨.inl rfl, List.forall_mem_nil _, rfl, rfl⟩, rfl⟩,
    ((match?_longest hzero file).2.1 _ hcut0).2 horder0⟩

end JsonnetLens
