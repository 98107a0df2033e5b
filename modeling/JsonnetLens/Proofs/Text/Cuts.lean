import JsonnetLens.Text.Basic
import Mathlib.Data.List.TakeWhile
/-!
# Cutting texts where they were put together

A text with a separator in it is cut there as long as the separator does not stand before, and what
an ending or a beginning takes away stops at the first character it does not take.
-/
namespace JsonnetLens.Text

theorem after?_append_cons {c : Char} {start : Text} (hc : c ∉ start) (s rest : Text) :
    after? start (s ++ c :: rest) = (after? start s).map (· ++ c :: rest) := by
  induction start generalizing s with
  | nil => rfl
  | cons d start ih =>
    have hstart : c ∉ start := fun h => hc (List.mem_cons_of_mem _ h)
    have hd : d ≠ c := fun h => hc (h ▸ List.mem_cons_self)
    cases s with
    | nil => simp [after?, hd]
    | cons e s =>
      by_cases he : d = e
      · simp [after?, he, ih hstart]
      · simp [after?, he]

theorem before?_append (ending t : Text) : before? ending (t ++ ending) = some t := by
  rw [before?, List.reverse_append, after?_append, Option.map_some, List.reverse_reverse]

theorem cutFirst?_append {sep : Char} {s : Text} (h : sep ∉ s) (t : Text) :
    cutFirst? sep (s ++ sep :: t) = some (s, t) := by
  induction s with
  | nil => simp [cutFirst?]
  | cons c s ih =>
    have hc : c ≠ sep := fun hc => h (hc ▸ List.mem_cons_self)
    rw [List.cons_append, cutFirst?, if_neg hc, ih fun hs => h (List.mem_cons_of_mem _ hs)]
    rfl

theorem cutFirst?_eq_none {sep : Char} {t : Text} (h : sep ∉ t) : cutFirst? sep t = none := by
  induction t with
  | nil => rfl
  | cons c t ih =>
    have hc : c ≠ sep := fun hc => h (hc ▸ List.mem_cons_self)
    rw [cutFirst?, if_neg hc, ih fun ht => h (List.mem_cons_of_mem _ ht)]
    rfl

theorem cutFirst?_eq_some {sep : Char} {t s rest : Text} (h : cutFirst? sep t = some (s, rest)) :
    t = s ++ sep :: rest ∧ sep ∉ s := by
  induction t generalizing s with
  | nil => simp [cutFirst?] at h
  | cons c t ih =>
    by_cases hc : c = sep
    · rw [cutFirst?, if_pos hc, Option.some.injEq, Prod.mk.injEq] at h
      obtain ⟨rfl, rfl⟩ := h
      exact ⟨by rw [hc]; rfl, List.not_mem_nil⟩
    · rw [cutFirst?, if_neg hc] at h
      obtain ⟨⟨s', rest'⟩, hcut, he⟩ := Option.map_eq_some_iff.1 h
      simp only [Prod.mk.injEq] at he
      obtain ⟨rfl, rfl⟩ := he
      obtain ⟨rfl, hs⟩ := ih hcut
      exact ⟨rfl, by simp [hs, Ne.symm hc]⟩

theorem cutLast?_eq_none_iff {sep : Char} {t : Text} : cutLast? sep t = none ↔ sep ∉ t := by
  induction t with
  | nil => simp [cutLast?]
  | cons c t ih =>
    rcases hcut : cutLast? sep t with _ | cut
    · have ht := ih.1 hcut
      simp [cutLast?, hcut, ht, eq_comm]
    · have ht : sep ∈ t := by
        by_contra hnot
        rw [ih.2 hnot] at hcut
        cases hcut
      simp [cutLast?, hcut, ht]

theorem cutLast?_append (s : Text) {sep : Char} {t : Text} (h : sep ∉ t) :
    cutLast? sep (s ++ sep :: t) = some (s, t) := by
  induction s with
  | nil => simp [cutLast?, cutLast?_eq_none_iff.2 h]
  | cons c s ih => rw [List.cons_append, cutLast?, ih]

theorem cutLast?_eq_some {sep : Char} {t s rest : Text} (h : cutLast? sep t = some (s, rest)) :
    t = s ++ sep :: rest ∧ sep ∉ rest := by
  induction t generalizing s with
  | nil => cases h
  | cons c t ih =>
    unfold cutLast? at h
    rcases hcut : cutLast? sep t with _ | ⟨before, after⟩
    · simp only [hcut] at h
      split at h
      · rename_i hc
        cases h
        exact ⟨by rw [hc]; rfl, cutLast?_eq_none_iff.1 hcut⟩
      · cases h
    · simp only [hcut] at h
      cases h
      obtain ⟨ht, hrest⟩ := ih hcut
      exact ⟨by rw [ht]; rfl, hrest⟩

/-- Blanks are cut off at the end of a text only as far as the last character that is none. -/
theorem trimRight_append_cons {drop : Char → Bool} {c : Char} (hc : drop c = false) (s rest : Text) :
    ∃ rest', trimRight drop (s ++ c :: rest) = s ++ c :: rest' := by
  have hreverse : (s ++ c :: rest).reverse = rest.reverse ++ c :: s.reverse := by simp
  refine ⟨(rest.reverse.dropWhile drop).reverse, ?_⟩
  rw [trimRight, hreverse, List.dropWhile_append]
  split
  · rename_i hempty
    simp_all
  · simp

theorem trim_ne_nil {drop : Char → Bool} {t : Text} (h : ∃ c ∈ t, drop c = false) : trim drop t ≠ [] := by
  obtain ⟨c, hc, hdrop⟩ := h
  rw [← List.takeWhile_append_dropWhile (p := drop) (l := t), List.mem_append] at hc
  have hmem : c ∈ trimLeft drop t := hc.resolve_left fun hc => by
    rw [List.mem_takeWhile_imp hc] at hdrop
    cases hdrop
  intro hnil
  rw [trim, trimRight, List.reverse_eq_nil_iff, List.dropWhile_eq_nil_iff] at hnil
  rw [hnil c (List.mem_reverse.2 hmem)] at hdrop
  cases hdrop

theorem takeWhile_append_of_all {p : Char → Bool} {s t : Text} (hs : ∀ c ∈ s, p c = true)
    (ht : t.head?.all (!p ·) = true) : (s ++ t).takeWhile p = s ∧ (s ++ t).dropWhile p = t := by
  rw [List.takeWhile_append_of_pos hs, List.dropWhile_append_of_pos hs]
  cases t with
  | nil => simp
  | cons c t =>
    have hc : p c = false := by simpa using ht
    simp [hc]

theorem mem_join {c : Char} {sep : Text} (hc : c ∉ sep) {ts : List Text} :
    c ∈ join sep ts ↔ ∃ t ∈ ts, c ∈ t := by
  fun_induction join sep ts with
  | case1 => simp
  | case2 t => simp
  | case3 t rest _ ih => simp [ih, hc]

theorem not_mem_of_mem_splitOn {sep : Char} {t s : Text} (h : s ∈ t.splitOn sep) : sep ∉ s := by
  induction t generalizing s with
  | nil =>
    obtain rfl : s = [] := by simpa using h
    exact List.not_mem_nil
  | cons c t ih =>
    rw [List.splitOn_cons_eq_if_modifyHead] at h
    by_cases hc : c = sep
    · rw [if_pos (beq_iff_eq.2 hc), List.mem_cons] at h
      rcases h with rfl | h
      · exact List.not_mem_nil
      · exact ih h
    · rw [if_neg (mt beq_iff_eq.1 hc)] at h
      obtain ⟨first, others, ht⟩ := List.exists_cons_of_ne_nil (List.splitOn_ne_nil sep t)
      rw [ht, List.modifyHead_cons, List.mem_cons] at h
      rcases h with rfl | h
      · have hfirst : sep ∉ first := ih (ht ▸ List.mem_cons_self)
        simp [hfirst, Ne.symm hc]
      · exact ih (ht ▸ List.mem_cons_of_mem _ h)

theorem splitOn_join {sep : Char} {segments : List Text} (h : ∀ s ∈ segments, sep ∉ s) :
    (join [sep] segments).splitOn sep = if segments = [] then [[]] else segments := by
  fun_induction join [sep] segments with
  | case1 => rfl
  | case2 t => simpa using List.splitOn_eq_singleton (h t List.mem_cons_self)
  | case3 t rest hrest ih =>
    have ht := h t List.mem_cons_self
    rw [List.append_assoc, List.singleton_append, List.splitOn_append_cons_self,
      List.splitOn_eq_singleton ht, ih fun s hs => h s (List.mem_cons_of_mem _ hs), if_neg hrest]
    rfl

/-- What the first 128 characters have in common holds of every ASCII character. -/
theorem of_isAscii {p : Char → Prop} (hall : ∀ n < 0x80, p (Char.ofNat n)) {c : Char}
    (h : isAscii c = true) : p c := by
  have hc := hall c.toNat (by simpa [isAscii] using h)
  rwa [Char.ofNat_toNat] at hc

end JsonnetLens.Text
