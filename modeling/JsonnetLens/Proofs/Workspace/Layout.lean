import JsonnetLens.Proofs.Workspace.Component
/-!
# The layout of components

A component is a file below the directory of components, and its name is the path of that file there
without its extension.  So files with the same extension have different names
(`eq_of_componentName_eq`).  A file anywhere else is named by its own name without the last suffix,
whatever its directory (`componentName_of_outside`).
-/
namespace JsonnetLens

namespace Path

variable {name stem suffix : Text}

/-! ## Suffixes -/

/-- The name ends in a dot and a suffix, and something stands before the dot. -/
def EndsIn (name stem suffix : Text) : Prop :=
  name = stem ++ '.' :: suffix ∧ stem ≠ [] ∧ suffix ≠ [] ∧ '.' ∉ suffix

/-- The name without its last suffix; a name that ends in none is its own stem. -/
def IsStem (name stem : Text) : Prop :=
  (∃ suffix, EndsIn name stem suffix) ∨ (stem = name ∧ ∀ stem suffix, ¬ EndsIn name stem suffix)

theorem EndsIn.splitSuffix_eq (h : EndsIn name stem suffix) : splitSuffix name = (stem, suffix) := by
  obtain ⟨rfl, hstem, hsuffix, hdot⟩ := h
  rw [splitSuffix, Text.cutLast?_append stem hdot]
  simp [hstem, hsuffix]

theorem isStem_splitSuffix (name : Text) : IsStem name (splitSuffix name).1 := by
  by_cases h : ∃ stem suffix, EndsIn name stem suffix
  · obtain ⟨stem, suffix, h⟩ := h
    rw [h.splitSuffix_eq]
    exact .inl ⟨suffix, h⟩
  · refine .inr ⟨?_, fun stem suffix hends => h ⟨stem, suffix, hends⟩⟩
    unfold splitSuffix
    split
    · rename_i stem suffix hcut
      obtain ⟨hname, hdot⟩ := Text.cutLast?_eq_some hcut
      split
      · rfl
      · rename_i hne
        simp only [Bool.or_eq_true, List.isEmpty_iff, not_or] at hne
        exact absurd ⟨stem, suffix, hname, hne.1, hne.2, hdot⟩ h
    · rfl

theorem name_ofText_append (directory : Text) (h : '/' ∉ name ∧ isSegment name = true) :
    (ofText (directory ++ '/' :: name)).name = name := by
  rw [ofText, List.splitOn_append_cons_self, List.splitOn_eq_singleton h.1, List.filter_append,
    List.filter_cons_of_pos h.2, List.filter_nil]
  exact name_append_singleton _ _ _

end Path

/-- A file below the directory of components: the directories it is in there, and its name with the
extension taken off. -/
structure ComponentFile where
  directories : List Text
  name : Text
  extension : Text

namespace ComponentFile

variable {file : ComponentFile} {root : Text}

def segments (file : ComponentFile) : List Text :=
  file.directories ++ [file.name ++ '.' :: file.extension]

/-- Where the file is in the application with this root. -/
def path (file : ComponentFile) (root : Text) : Text :=
  (Path.ofText root ++ Application.components ++ (⟨0, file.segments⟩ : Path)).toText

/-- The segments can be written in a path, and the extension begins at the last dot of the file. -/
structure Fits (file : ComponentFile) : Prop where
  segments : ∀ s ∈ file.directories ++ [file.name], '/' ∉ s ∧ Path.isSegment s = true
  slash : '/' ∉ file.extension
  dot : '.' ∉ file.extension
  extension : file.extension ≠ []

theorem Fits.endsIn (h : file.Fits) :
    Path.EndsIn (file.name ++ '.' :: file.extension) file.name file.extension := by
  obtain ⟨-, hname⟩ := h.segments file.name (by simp)
  refine ⟨rfl, fun hnil => ?_, h.extension, h.dot⟩
  rw [hnil] at hname
  cases hname

theorem Fits.isRead (h : file.Fits) : (⟨0, file.segments⟩ : Path).IsRead := by
  refine ⟨Nat.zero_le 2, fun s hs => ?_⟩
  rcases List.mem_append.1 hs with hs | hs
  · exact h.segments s (List.mem_append_left _ hs)
  · rw [List.mem_singleton.1 hs]
    obtain ⟨hslash, -⟩ := h.segments file.name (by simp)
    refine ⟨by simp [hslash, h.slash], ?_⟩
    rcases hname : file.name with _ | ⟨c, name⟩
    · simp [Path.isSegment, h.extension]
    · simp [Path.isSegment]

theorem Fits.ofText_path (h : file.Fits) (root : Text) :
    Path.ofText (file.path root) =
      Path.ofText root ++ Application.components ++ (⟨0, file.segments⟩ : Path) := by
  have hcomponents : Application.components.IsRead := ⟨Nat.zero_le 2, by decide⟩
  exact Path.ofText_toText (((Path.isRead_ofText root).append hcomponents).append h.isRead)

end ComponentFile

namespace Application

variable {root : Text} {file other : ComponentFile}

/-- **A component is named by its directories and its name.** -/
theorem componentName_path (root : Text) (h : file.Fits) :
    componentName root (file.path root) = .ok (Text.join ['/'] (file.directories ++ [file.name])) := by
  have hsegments : nameSegments (Path.ofText root ++ components) (Path.ofText (file.path root)) =
      file.directories ++ [file.name] := by
    rw [h.ofText_path, Path.append_of_relative (Path.ofText root ++ components) rfl,
      ComponentFile.segments, nameSegments_append, h.endsIn.splitSuffix_eq]
  rw [componentName_eq, hsegments]
  simp

theorem eq_of_componentName_eq (h : file.Fits) (ho : other.Fits)
    (hextension : file.extension = other.extension)
    (hname : componentName root (file.path root) = componentName root (other.path root)) :
    file = other := by
  rw [componentName_path root h, componentName_path root ho, Except.ok.injEq] at hname
  -- no segment holds a slash, so the name is cut into the segments it was put together from
  have hsegments := congrArg (fun name : Text => name.splitOn '/') hname
  rw [Text.splitOn_join fun s hs => (h.segments s hs).1,
    Text.splitOn_join fun s hs => (ho.segments s hs).1, if_neg (by simp), if_neg (by simp)] at hsegments
  obtain ⟨directories, name, extension⟩ := file
  obtain ⟨directories', name', extension'⟩ := other
  obtain ⟨hdirectories, hlast⟩ := List.append_inj' hsegments rfl
  cases hdirectories
  cases hlast
  cases hextension
  rfl

/-- A file outside the components is named by its own name, without its directory. -/
theorem componentName_of_outside {directory name : Text} (hname : '/' ∉ name ∧ Path.isSegment name = true)
    (hout : Path.ofText root ++ components ∉ (Path.ofText (directory ++ '/' :: name)).ancestors) :
    componentName root (directory ++ '/' :: name) = .ok (Path.splitSuffix name).1 := by
  have hnone : (Path.ofText (directory ++ '/' :: name)).relativeTo? (Path.ofText root ++ components) =
      none := by
    refine Option.eq_none_iff_forall_ne_some.2 fun below hbelow => hout ?_
    obtain ⟨hslashes, -, hsegments⟩ := Path.relativeTo?_eq_some_iff.1 hbelow
    exact Path.mem_ancestors.2 ⟨hslashes.symm, hsegments ▸ List.prefix_append _ _⟩
  rw [componentName_eq, nameSegments_of_outside hnone, Path.stem, Path.name_ofText_append directory hname]
  rfl

/-- **The name of a component inverts the layout of the components.**  A file below their directory is
named by its path there without the extension, and no other file with that extension has this name.  A
file that is neither that directory nor below it is named by its own name without the last suffix. -/
theorem componentName_inverts (root : Text) :
    (∀ file : ComponentFile, file.Fits → componentName root (file.path root) =
      .ok (Text.join ['/'] (file.directories ++ [file.name]))) ∧
    (∀ file other : ComponentFile, file.Fits → other.Fits → file.extension = other.extension →
      componentName root (file.path root) = componentName root (other.path root) → file = other) ∧
    ∀ directory name, '/' ∉ name → Path.isSegment name = true →
      Path.ofText root ++ components ∉ (Path.ofText (directory ++ '/' :: name)).ancestors →
      ∃ stem, componentName root (directory ++ '/' :: name) = .ok stem ∧ Path.IsStem name stem :=
  ⟨fun _ h => componentName_path root h, fun _ _ h ho => eq_of_componentName_eq h ho,
    fun _ name hslash hsegment hout =>
      ⟨_, componentName_of_outside ⟨hslash, hsegment⟩ hout, Path.isStem_splitSuffix name⟩⟩

/-- A name with a dot at its front and another one in it, and a file in a directory whose name only
begins like that of the components. -/
theorem componentName_inverts_dots :
    let file : ComponentFile := ⟨["db".toList, ".v1.2".toList], ".redis.cache".toList, "jsonnet".toList⟩
    file.path "/app".toList = "/app/components/db/.v1.2/.redis.cache.jsonnet".toList ∧
      componentName "/app".toList (file.path "/app".toList) = .ok "db/.v1.2/.redis.cache".toList ∧
      ∃ stem, componentName "/app".toList "/app/components-old/.redis".toList = .ok stem ∧
        Path.IsStem ".redis".toList stem := by
  intro file
  have hsegments : (file.directories ++ [file.name]).all
      (fun s => '/' ∉ s && Path.isSegment s) = true := by decide
  have hfits : file.Fits := {
    segments := fun s hs => by simpa using List.all_eq_true.1 hsegments s hs
    slash := by decide
    dot := by decide
    extension := by decide }
  obtain ⟨hinside, -, houtside⟩ := componentName_inverts "/app".toList
  exact ⟨by decide +kernel, hinside file hfits,
    houtside "/app/components-old".toList ".redis".toList (by decide) (by decide) (by decide +kernel)⟩

end Application
end JsonnetLens
