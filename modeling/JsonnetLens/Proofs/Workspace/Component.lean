import JsonnetLens.Proofs.Workspace.Search
/-!
# The names of components

A name is put together from segments (`componentName_eq`), so two files have the same name just when
they have the same segments (`componentName_eq_iff`).  Only the directory of components itself has no
name, and a file is found to be that directory exactly where `IsComponentsDirectory` says so
(`exists_nameless_iff`).
-/
namespace JsonnetLens.Application

open JsonnetLens.Path (dots)

variable {directory source : Path} {root file file' : Text}

/-! ## Names as segments -/

/-- The segments of a component's name, the last one without its suffix: those below the directory
of components, or the last one alone.  The directory itself has none. -/
def nameSegments (directory source : Path) : List Text :=
  match source.relativeTo? directory with
  | some below => below.segments.dropLast ++
      below.segments.getLast?.toList.map fun last => (Path.splitSuffix last).1
  | none => [source.stem]

theorem nameSegments_self (directory : Path) : nameSegments directory directory = [] := by
  rw [nameSegments, Path.relativeTo?_self]
  rfl

theorem nameSegments_append (directory : Path) (front : List Text) (last : Text) :
    nameSegments directory ⟨directory.slashes, directory.segments ++ (front ++ [last])⟩ =
      front ++ [(Path.splitSuffix last).1] := by
  rw [nameSegments, Path.relativeTo?_below]
  simp

theorem nameSegments_of_outside (h : source.relativeTo? directory = none) :
    nameSegments directory source = [source.stem] := by
  rw [nameSegments, h]

theorem outside_or_self_or_below (directory source : Path) :
    source.relativeTo? directory = none ∨ source = directory ∨
      ∃ front last, source = ⟨directory.slashes, directory.segments ++ (front ++ [last])⟩ := by
  rcases hbelow : source.relativeTo? directory with _ | ⟨slashes, segments⟩
  · exact .inl rfl
  · obtain ⟨hslashes, -, hsegments⟩ := Path.relativeTo?_eq_some_iff.1 hbelow
    obtain ⟨sourceSlashes, sourceSegments⟩ := source
    obtain rfl : sourceSlashes = directory.slashes := hslashes
    obtain rfl : sourceSegments = directory.segments ++ segments := hsegments
    rcases List.eq_nil_or_concat' segments with rfl | ⟨front, last, rfl⟩
    · exact .inr (.inl (by rw [List.append_nil]))
    · exact .inr (.inr ⟨front, last, rfl⟩)

theorem nameSegments_eq_nil_iff : nameSegments directory source = [] ↔ source = directory := by
  constructor
  · intro h
    rcases outside_or_self_or_below directory source with houtside | hself | ⟨front, last, rfl⟩
    · rw [nameSegments_of_outside houtside] at h
      cases h
    · exact hself
    · rw [nameSegments_append] at h
      simp at h
  · rintro rfl
    exact nameSegments_self source

/-- The last segment alone names the component: the path is outside the components or directly in
their directory. -/
def NamedByStem (directory source : Path) : Prop :=
  ∀ below, source.relativeTo? directory = some below → below.segments.length = 1

theorem nameSegments_eq_singleton_iff {s : Text} :
    nameSegments directory source = [s] ↔ NamedByStem directory source ∧ s = source.stem := by
  rcases outside_or_self_or_below directory source with houtside | rfl | ⟨front, last, rfl⟩
  · rw [nameSegments_of_outside houtside]
    simp [NamedByStem, houtside, eq_comm]
  · rw [nameSegments_self]
    simp [NamedByStem, Path.relativeTo?_self]
  · have hstem : Path.stem ⟨directory.slashes, directory.segments ++ (front ++ [last])⟩ =
        (Path.splitSuffix last).1 := by
      rw [Path.stem, ← List.append_assoc, Path.name_append_singleton]
    rw [nameSegments_append, hstem]
    rcases front with _ | ⟨first, front⟩
    · simpa [NamedByStem, Path.relativeTo?_below] using eq_comm
    · simp [NamedByStem, Path.relativeTo?_below]

theorem slash_not_mem_nameSegments (directory : Path) (h : source.IsRead) :
    ∀ s ∈ nameSegments directory source, '/' ∉ s := by
  have hstem : ∀ name, '/' ∉ name → '/' ∉ (Path.splitSuffix name).1 := fun name hname hmem =>
    hname (Path.splitSuffix_subset name hmem)
  intro s hs
  rcases outside_or_self_or_below directory source with houtside | rfl | ⟨front, last, rfl⟩
  · rw [nameSegments_of_outside houtside, List.mem_singleton] at hs
    subst hs
    exact hstem _ h.slash_not_mem_name
  · rw [nameSegments_self] at hs
    cases hs
  · rw [nameSegments_append] at hs
    rcases List.mem_append.1 hs with hs | hs
    · exact (h.segments s (by simp [hs])).1
    · rw [List.mem_singleton] at hs
      subst hs
      exact hstem last (h.segments last (by simp)).1

/-! ## Names -/

/-- A name is its segments with slashes between them. -/
theorem componentName_eq (root file : Text) :
    componentName root file =
      let segments := nameSegments (Path.ofText root ++ components) (Path.ofText file)
      if segments = [] then .error .namelessComponent else .ok (Text.join ['/'] segments) := by
  unfold componentName nameSegments
  dsimp only
  rcases hbelow : (Path.ofText file).relativeTo? (Path.ofText root ++ components) with
    _ | ⟨slashes, segments⟩
  · rfl
  · rcases List.eq_nil_or_concat' segments with rfl | ⟨front, last, rfl⟩
    · rfl
    · simp [withoutSuffix]

/-- **Two files have the same name just when they have the same segments.** -/
theorem componentName_eq_iff :
    componentName root file = componentName root file' ↔
      nameSegments (Path.ofText root ++ components) (Path.ofText file) =
        nameSegments (Path.ofText root ++ components) (Path.ofText file') := by
  have hfile := slash_not_mem_nameSegments (Path.ofText root ++ components) (Path.isRead_ofText file)
  have hfile' := slash_not_mem_nameSegments (Path.ofText root ++ components) (Path.isRead_ofText file')
  rw [componentName_eq, componentName_eq]
  generalize nameSegments (Path.ofText root ++ components) (Path.ofText file) = segments at hfile ⊢
  generalize nameSegments (Path.ofText root ++ components) (Path.ofText file') = segments' at hfile' ⊢
  refine ⟨fun h => ?_, fun h => by rw [h]⟩
  by_cases hnil : segments = [] <;> by_cases hnil' : segments' = []
  · rw [hnil, hnil']
  · simp [hnil, hnil'] at h
  · simp [hnil, hnil'] at h
  · simp only [hnil, hnil', if_false, Except.ok.injEq] at h
    rw [← if_neg (c := segments = []) (t := [[]]) (e := segments) hnil, ← Text.splitOn_join hfile, h,
      Text.splitOn_join hfile', if_neg hnil']

theorem componentName_eq_error_iff {fault : Fault} :
    componentName root file = .error fault ↔
      fault = .namelessComponent ∧ Path.ofText file = Path.ofText root ++ components := by
  rw [componentName_eq, ← nameSegments_eq_nil_iff]
  dsimp only
  split
  · rename_i hnil
    simp [hnil, eq_comm]
  · rename_i hnil
    simp [hnil]

/-! ## The file without a name -/

variable {tree : FileTree} {marker : Text}

/-- The path ends in the directory of components of an application. -/
def IsComponentsDirectory (tree : FileTree) (marker file : Text) : Prop :=
  let p := Path.ofText file
  p = p.parent ++ components ∧ dots ∉ p.segments ∧ tree.IsReadable (p.parent ++ Path.ofText marker)

instance : Decidable (IsComponentsDirectory tree marker file) :=
  inferInstanceAs (Decidable (_ ∧ _ ∧ _))

theorem append_components (p : Path) :
    p ++ components = ⟨p.slashes, p.segments ++ ["components".toList]⟩ :=
  Path.append_of_relative p rfl

theorem parent_append_components (p : Path) : (p ++ components).parent = p := by
  rw [append_components, Path.parent, List.dropLast_concat]

theorem dots_not_mem_append_components {p : Path} (h : dots ∉ p.segments) :
    dots ∉ (p ++ components).segments := by
  rw [append_components]
  simpa [h] using (by decide : dots ≠ "components".toList)

theorem levels_of_slashes (tree : FileTree) (h : (Path.ofText file).slashes ≠ 0) :
    levels tree file = (Path.ofText file).normal.parent.ancestors := by
  rw [levels, FileTree.absolute_of_slashes tree h]

theorem dots_not_mem_ancestor {p level : Path} (h : p.slashes ≠ 0)
    (hlevel : level ∈ p.normal.parent.ancestors) : dots ∉ level.segments := by
  intro hmem
  have hbegins := (Path.mem_ancestors.1 hlevel).2
  exact Path.dots_not_mem_normal h (List.dropLast_subset _ (hbegins.subset hmem))

theorem root?_parent (h : (Path.ofText file).slashes ≠ 0) (hdots : dots ∉ (Path.ofText file).segments)
    (hmarker : tree.IsReadable ((Path.ofText file).parent ++ Path.ofText marker)) :
    root? tree file marker = some (Path.ofText file).parent.toText := by
  have hhead := Path.head?_ancestors (Path.ofText file).parent
  obtain ⟨above, habove⟩ := List.head?_eq_some_iff.1 hhead
  have hfound := FileTree.probe_eq_found_iff.2 hmarker
  rw [root?_eq, levels_of_slashes tree h, Path.normal_of_not_mem hdots, habove]
  simp [hfound]

/-- **A file without a name** is the directory of components of its own application, and that is so
just when the directory that it is in holds a marker. -/
theorem exists_nameless_iff (h : (Path.ofText file).slashes ≠ 0) :
    (∃ root, root? tree file marker = some root ∧
      Path.ofText file = Path.ofText root ++ components) ↔
    IsComponentsDirectory tree marker file := by
  constructor
  · rintro ⟨root, hroot, hfile⟩
    obtain ⟨level, hlevel, hmarker, rfl⟩ := exists_level_of_root? hroot
    rw [Path.ofText_toText (isRead_of_mem_levels hlevel)] at hfile
    have hparent : (Path.ofText file).parent = level := by rw [hfile, parent_append_components]
    rw [levels_of_slashes tree h] at hlevel
    have hdots := dots_not_mem_append_components (dots_not_mem_ancestor h hlevel)
    exact ⟨by rw [hparent, hfile], by rwa [hfile], by rwa [hparent]⟩
  · rintro ⟨hfile, hdots, hmarker⟩
    refine ⟨_, root?_parent h hdots hmarker, ?_⟩
    rw [Path.ofText_toText (Path.isRead_ofText file).parent]
    exact hfile

end JsonnetLens.Application
