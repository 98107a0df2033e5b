import JsonnetLens.Proofs.Path.Text
import Mathlib.Data.List.Chain
/-!
# Normal paths

Resolving the double dots of an absolute path leaves none (`dots_not_mem_normal`), and a path without
any is left alone (`normal_of_not_mem`).  The way up from a path goes from parent to parent and ends at
the root (`isChain_ancestors`), and its name leads back from its directory (`IsRead.parent_append_name`).
-/
namespace JsonnetLens.Path

variable {p : Path} {segments kept : List Text} {absolute : Bool}

/-! ## Double dots -/

theorem resolveSegment_of_ne {s : Text} (h : s ≠ dots) : resolveSegment absolute kept s = s :: kept := by
  unfold resolveSegment
  rw [if_pos h]

theorem foldl_resolveSegment_of_not_mem (h : dots ∉ segments) (kept : List Text) :
    segments.foldl (resolveSegment absolute) kept = segments.reverse ++ kept := by
  induction segments generalizing kept with
  | nil => rfl
  | cons s segments ih =>
    obtain ⟨hs, hrest⟩ := not_or.1 (mt List.mem_cons.2 h)
    rw [List.foldl_cons, resolveSegment_of_ne (Ne.symm hs), ih hrest, List.reverse_cons,
      List.append_assoc]
    rfl

/-- Below a root a double dot only takes away. -/
theorem dots_not_mem_resolveSegment (h : dots ∉ kept) (s : Text) :
    dots ∉ resolveSegment true kept s := by
  unfold resolveSegment
  split
  · rename_i hs
    exact List.not_mem_cons_of_ne_of_not_mem (Ne.symm hs) h
  · split
    · exact h
    · rename_i last rest
      obtain ⟨hlast, hrest⟩ := not_or.1 (mt List.mem_cons.2 h)
      rw [if_neg (Ne.symm hlast)]
      exact hrest

theorem dots_not_mem_foldl (h : dots ∉ kept) (segments : List Text) :
    dots ∉ segments.foldl (resolveSegment true) kept := by
  induction segments generalizing kept with
  | nil => exact h
  | cons s segments ih => exact ih (dots_not_mem_resolveSegment h s)

theorem mem_resolveSegment {s t : Text} (h : t ∈ resolveSegment absolute kept s) :
    t = s ∨ t ∈ kept := by
  unfold resolveSegment at h
  split at h
  · exact List.mem_cons.1 h
  · rename_i hs
    obtain rfl : s = dots := not_not.1 hs
    split at h
    · split at h
      · exact .inr h
      · exact .inl (List.mem_singleton.1 h)
    · split at h
      · exact List.mem_cons.1 h
      · exact .inr (List.mem_cons_of_mem _ h)

theorem mem_foldl_resolveSegment {t : Text} (h : t ∈ segments.foldl (resolveSegment absolute) kept) :
    t ∈ segments ∨ t ∈ kept := by
  induction segments generalizing kept with
  | nil => exact .inr h
  | cons s segments ih =>
    rcases ih h with h | h
    · exact .inl (List.mem_cons_of_mem _ h)
    · rcases mem_resolveSegment h with rfl | h
      · exact .inl List.mem_cons_self
      · exact .inr h

/-! ## Normal forms -/

theorem normal_of_not_mem (h : dots ∉ p.segments) : p.normal = p := by
  rw [normal, foldl_resolveSegment_of_not_mem h, List.append_nil, List.reverse_reverse]

theorem dots_not_mem_normal (h : p.slashes ≠ 0) : dots ∉ p.normal.segments := by
  have habsolute : p.isAbsolute = true := by simpa [isAbsolute] using h
  rw [normal, habsolute, List.mem_reverse]
  exact dots_not_mem_foldl List.not_mem_nil _

theorem mem_segments_of_mem_normal {s : Text} (h : s ∈ p.normal.segments) : s ∈ p.segments :=
  (mem_foldl_resolveSegment (List.mem_reverse.1 h)).resolve_right List.not_mem_nil

theorem IsRead.normal (h : p.IsRead) : p.normal.IsRead :=
  ⟨h.slashes, fun s hs => h.segments s (mem_segments_of_mem_normal hs)⟩

theorem IsRead.append {q : Path} (hp : p.IsRead) (hq : q.IsRead) : (p ++ q).IsRead := by
  change (Path.append p q).IsRead
  unfold Path.append
  split
  · exact hq
  · refine ⟨hp.slashes, fun s hs => ?_⟩
    rcases List.mem_append.1 hs with hs | hs
    · exact hp.segments s hs
    · exact hq.segments s hs

theorem ofText_normalizePath (t : Text) : ofText (normalizePath t) = (ofText t).normal :=
  ofText_toText (isRead_ofText t).normal

/-- A double dot at the end takes the segment before it away. -/
theorem normal_append_dots {slashes : Nat} (h : slashes ≠ 0) (hdots : dots ∉ segments) :
    (⟨slashes, segments ++ [dots]⟩ : Path).normal.segments = segments.dropLast := by
  have habsolute : (⟨slashes, segments ++ [dots]⟩ : Path).isAbsolute = true := by
    simpa [isAbsolute] using h
  rw [normal, habsolute, List.foldl_append, foldl_resolveSegment_of_not_mem hdots, List.append_nil]
  rcases List.eq_nil_or_concat segments with rfl | ⟨front, last, rfl⟩
  · rfl
  · have hlast : last ≠ dots := fun hlast => hdots (by simp [hlast])
    simp [resolveSegment, hlast]

/-! ## Parents -/

variable {q : Path}

/-- What is above a path is a path that it begins with. -/
theorem mem_ancestors : q ∈ p.ancestors ↔ q.slashes = p.slashes ∧ q.segments <+: p.segments := by
  obtain ⟨slashes, segments⟩ := q
  simp only [ancestors, List.mem_map, List.mem_range, mk.injEq]
  constructor
  · rintro ⟨n, _, hslashes, rfl⟩
    exact ⟨hslashes.symm, List.take_prefix _ _⟩
  · rintro ⟨hslashes, hbegins⟩
    have hlength := hbegins.length_le
    refine ⟨p.segments.length - segments.length, by omega, hslashes.symm, ?_⟩
    rw [Nat.sub_sub_self hlength]
    exact (List.prefix_iff_eq_take.1 hbegins).symm

theorem IsRead.of_mem_ancestors (h : p.IsRead) (hq : q ∈ p.ancestors) : q.IsRead := by
  obtain ⟨hslashes, hbegins⟩ := mem_ancestors.1 hq
  exact ⟨hslashes ▸ h.slashes, fun s hs => h.segments s (hbegins.subset hs)⟩

theorem IsRead.parent (h : p.IsRead) : p.parent.IsRead :=
  h.of_mem_ancestors (mem_ancestors.2 ⟨rfl, List.dropLast_prefix _⟩)

/-- Above a path come its parent and what is above that. -/
theorem ancestors_append_singleton (slashes : Nat) (front : List Text) (last : Text) :
    (⟨slashes, front ++ [last]⟩ : Path).ancestors =
      ⟨slashes, front ++ [last]⟩ :: (⟨slashes, front⟩ : Path).ancestors := by
  simp only [ancestors, List.length_append, List.length_singleton]
  rw [List.range_succ_eq_map, List.map_cons, List.map_map]
  congr 1
  · exact congrArg _ (List.take_of_length_le (by simp))
  · refine List.map_congr_left fun n hn => ?_
    have hn : n < front.length + 1 := List.mem_range.1 hn
    rw [Function.comp_apply, List.take_append_of_le_length (by omega)]
    congr 2
    omega

theorem head?_ancestors (p : Path) : p.ancestors.head? = some p := by
  obtain ⟨slashes, segments⟩ := p
  rcases List.eq_nil_or_concat' segments with rfl | ⟨front, last, rfl⟩
  · rfl
  · rw [ancestors_append_singleton]
    rfl

/-- **The way up**: every path is followed by its parent, and the last one is the root. -/
theorem isChain_ancestors (p : Path) :
    p.ancestors.IsChain (fun level above => above = level.parent ∧ above ≠ level) ∧
      p.ancestors.getLast? = some ⟨p.slashes, []⟩ := by
  obtain ⟨slashes, segments⟩ := p
  induction segments using List.reverseRecOn with
  | nil => exact ⟨.singleton _, rfl⟩
  | append_singleton front last ih =>
    rw [ancestors_append_singleton]
    refine ⟨List.isChain_cons.2 ⟨fun above habove => ?_, ih.1⟩, ?_⟩
    · rw [head?_ancestors, Option.mem_some_iff] at habove
      subst habove
      exact ⟨by rw [parent, List.dropLast_concat], by simp⟩
    · rw [List.getLast?_cons, ih.2]
      rfl

theorem nodup_ancestors (p : Path) : p.ancestors.Nodup := by
  obtain ⟨slashes, segments⟩ := p
  induction segments using List.reverseRecOn with
  | nil => exact List.pairwise_singleton _ _
  | append_singleton front last ih =>
    rw [ancestors_append_singleton]
    refine List.nodup_cons.2 ⟨fun hmem => ?_, ih⟩
    have hlength : (front ++ [last]).length ≤ front.length := (mem_ancestors.1 hmem).2.length_le
    rw [List.length_append, List.length_singleton] at hlength
    omega

/-! ## Directory and name -/

theorem ofText_segment {s : Text} (h : '/' ∉ s ∧ isSegment s = true) : ofText s = ⟨0, [s]⟩ := by
  have hread : (⟨0, [s]⟩ : Path).IsRead :=
    ⟨Nat.zero_le 2, fun t ht => by rwa [List.mem_singleton.1 ht]⟩
  exact ofText_toText hread

theorem name_append_singleton (slashes : Nat) (front : List Text) (last : Text) :
    (⟨slashes, front ++ [last]⟩ : Path).name = last := by
  rw [name, List.getLast?_concat]
  rfl

/-- **The name leads from the directory to the path.** -/
theorem IsRead.parent_append_name (h : p.IsRead) : p.parent ++ ofText p.name = p := by
  obtain ⟨slashes, segments⟩ := p
  rcases List.eq_nil_or_concat' segments with rfl | ⟨front, last, rfl⟩
  · exact append_of_relative _ rfl
  · rw [name_append_singleton, ofText_segment (h.segments last (by simp)),
      append_of_relative _ rfl, Path.parent, List.dropLast_concat]

theorem IsRead.slash_not_mem_name (h : p.IsRead) : '/' ∉ p.name := by
  obtain ⟨slashes, segments⟩ := p
  rcases List.eq_nil_or_concat' segments with rfl | ⟨front, last, rfl⟩
  · exact List.not_mem_nil
  · rw [name_append_singleton]
    exact (h.segments last (by simp)).1

theorem splitSuffix_subset (name : Text) : (splitSuffix name).1 ⊆ name := by
  unfold splitSuffix
  split
  · rename_i stem suffix hcut
    split
    · exact List.Subset.refl _
    · rw [(Text.cutLast?_eq_some hcut).1]
      exact List.subset_append_left _ _
  · exact List.Subset.refl _

theorem getLast?_splitOn_toText (h : p.IsRead) (hslashes : p.slashes ≠ 0) :
    (p.toText.splitOn '/').getLast? = some p.name := by
  have hne : ¬ (p.slashes = 0 ∧ p.segments = []) := fun h => hslashes h.1
  rw [toText, if_neg hne, splitOn_replicate_append, List.getLast?_append,
    Text.splitOn_join fun s hs => (h.segments s hs).1, name]
  split
  · rename_i hnil
    rw [hnil]
    rfl
  · rename_i hnil
    rw [List.getLast?_eq_some_getLast hnil]
    rfl

end JsonnetLens.Path
