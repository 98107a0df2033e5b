import JsonnetLens.Workspace.Application
import JsonnetLens.Proofs.Path.Normal
import Mathlib.Data.List.Nodup
/-!
# The search for the root of an application

The search goes up from the directory of a file with one look for each level, and is over with the
first level that holds the marker or with the root of the file system (`run_nearest?_noted`).  Its
answer depends only on which levels hold a marker that can be read: `root?_nearest`.
-/
namespace JsonnetLens

namespace FileTree

variable {tree : FileTree} {p : Path}

/-- There is a regular file, and the directory that it is in may be looked into. -/
def IsReadable (tree : FileTree) (p : Path) : Prop :=
  (tree.absolute p).toText ∈ tree.files ∧ (tree.absolute p).parent.toText ∉ tree.denied

instance : Decidable (tree.IsReadable p) := inferInstanceAs (Decidable (_ ∧ _))

theorem probe_eq_found_iff : tree.probe p = .found ↔ tree.IsReadable p := by
  unfold probe IsReadable
  by_cases hdenied : (tree.absolute p).parent.toText ∈ tree.denied
  · simp [hdenied]
  · by_cases hfile : (tree.absolute p).toText ∈ tree.files <;> simp [hdenied, hfile]

theorem isRead_absolute (tree : FileTree) (t : Text) : (tree.absolute (Path.ofText t)).IsRead :=
  ((Path.isRead_ofText _).append (Path.isRead_ofText t)).normal

/-- A path from the root is seen the same way from every directory. -/
theorem absolute_of_slashes (tree : FileTree) (h : p.slashes ≠ 0) : tree.absolute p = p.normal := by
  rw [absolute, Path.append_of_slashes _ h]

end FileTree

namespace Application

open FileTree (Probe)

/-- Looks that are written down in order. -/
def noted (look : Path → Probe) (level : Path) : StateM (List Path) Probe := do
  modify (· ++ [level])
  return look level

/-! ## The walk -/

variable {look : Path → Probe}

theorem run_nearest? (look : Path → Probe) (levels : List Path) :
    Id.run (nearest? (fun level => pure (look level)) levels) =
      levels.find? fun level => look level = .found := by
  induction levels with
  | nil => rfl
  | cons level rest ih =>
    by_cases h : look level = .found
    · simp [nearest?, h]
    · simpa [nearest?, h] using ih

/-- **The walk**: it looks into the levels before the first one that holds the marker, then into that
one, and into no other. -/
theorem run_nearest?_noted (look : Path → Probe) (levels looked : List Path) :
    (nearest? (noted look) levels).run looked =
      (levels.find? fun level => look level = .found,
        looked ++ (levels.takeWhile (fun level => look level ≠ .found) ++
          (levels.find? fun level => look level = .found).toList)) := by
  induction levels generalizing looked with
  | nil => exact Prod.ext rfl (List.append_nil looked).symm
  | cons level rest ih =>
    have hstep : (nearest? (noted look) (level :: rest)).run looked =
        if look level = .found then (some level, looked ++ [level])
        else (nearest? (noted look) rest).run (looked ++ [level]) := by
      by_cases h : look level = .found
      · simp [nearest?, noted, h]
        rfl
      · simp [nearest?, noted, h]
    rw [hstep]
    by_cases h : look level = .found
    · simp [h]
    · rw [if_neg h, ih]
      simp [h]

/-- No level is looked into twice or left out. -/
theorem isPrefix_looked (p : Path → Bool) (levels : List Path) :
    levels.takeWhile (fun level => !p level) ++ (levels.find? p).toList <+: levels := by
  rw [List.find?_eq_head?_dropWhile_not]
  conv => rhs; rw [← List.takeWhile_append_dropWhile (p := fun level => !p level) (l := levels)]
  refine (List.prefix_append_right_inj _).2 ?_
  cases levels.dropWhile fun level => !p level with
  | nil => exact List.prefix_rfl
  | cons level rest => exact ⟨rest, rfl⟩

/-! ## The root -/

variable {tree : FileTree} {file marker root : Text}

/-- The directories that may be the root of an application: the one of the file and those above. -/
def levels (tree : FileTree) (file : Text) : List Path :=
  (tree.absolute (Path.ofText file)).parent.ancestors

theorem isRead_of_mem_levels {level : Path} (h : level ∈ levels tree file) : level.IsRead :=
  (tree.isRead_absolute file).parent.of_mem_ancestors h

theorem root?_eq (tree : FileTree) (file marker : Text) :
    root? tree file marker =
      ((levels tree file).find? fun level =>
        tree.probe (level ++ Path.ofText marker) = .found).map Path.toText :=
  congrArg (Option.map Path.toText) (run_nearest? _ _)

theorem exists_level_of_root? (h : root? tree file marker = some root) :
    ∃ level ∈ levels tree file, tree.IsReadable (level ++ Path.ofText marker) ∧
      root = level.toText := by
  rw [root?_eq] at h
  obtain ⟨level, hlevel, rfl⟩ := Option.map_eq_some_iff.1 h
  have hfound := List.find?_some hlevel
  exact ⟨level, List.mem_of_find?_eq_some hlevel,
    FileTree.probe_eq_found_iff.1 (of_decide_eq_true hfound), rfl⟩

theorem find?_eq_getElem_iff {α : Type} {l : List α} (hl : l.Nodup) (p : α → Bool)
    (i : Fin l.length) :
    l.find? p = some l[i] ↔ p l[i] = true ∧ ∀ j < i, ¬ p l[j] = true := by
  rw [List.find?_eq_some_iff_getElem]
  refine and_congr_right fun _ => ⟨?_, fun h => ?_⟩
  · rintro ⟨k, hk, heq, hbefore⟩ j hj
    obtain rfl : k = i := (hl.getElem_inj_iff).1 heq
    simpa using hbefore j hj
  · exact ⟨i, i.isLt, rfl, fun j hj => by simpa using h ⟨j, by omega⟩ hj⟩

theorem root?_eq_some_getElem_iff (i : Fin (levels tree file).length) :
    root? tree file marker = some (levels tree file)[i].toText ↔
      tree.IsReadable ((levels tree file)[i] ++ Path.ofText marker) ∧
        ∀ j < i, ¬ tree.IsReadable ((levels tree file)[j] ++ Path.ofText marker) := by
  have hnodup : (levels tree file).Nodup := Path.nodup_ancestors _
  have hfind := find?_eq_getElem_iff hnodup
    (fun level => tree.probe (level ++ Path.ofText marker) = .found) i
  simp only [decide_eq_true_eq, FileTree.probe_eq_found_iff] at hfind
  rw [← hfind, root?_eq, Option.map_eq_some_iff]
  constructor
  · rintro ⟨level, hlevel, htext⟩
    have hread := isRead_of_mem_levels (List.mem_of_find?_eq_some hlevel)
    have hi : (levels tree file)[i].IsRead := isRead_of_mem_levels (List.getElem_mem i.isLt)
    rw [← hread.eq_of_toText_eq hi htext]
    simpa only [FileTree.probe_eq_found_iff] using hlevel
  · intro h
    exact ⟨_, by simpa only [FileTree.probe_eq_found_iff] using h, rfl⟩

theorem root?_eq_none_iff :
    root? tree file marker = none ↔
      ∀ level ∈ levels tree file, ¬ tree.IsReadable (level ++ Path.ofText marker) := by
  rw [root?_eq, Option.map_eq_none_iff, List.find?_eq_none]
  simp only [decide_eq_true_eq, FileTree.probe_eq_found_iff]

/-- **The search finds the nearest root and always ends.**  The levels are the directory of the file
and its parents up to the root of the file system.  The walk looks into the levels before the first
one with a readable marker and into that one, in order, and the root is that level; there is no root
just when there is no such level.  A level that may not be looked into is as good as one without a
marker. -/
theorem root?_nearest (tree : FileTree) (file marker : Text) :
    let look := fun level => tree.probe (level ++ Path.ofText marker)
    let walk := (nearest? (noted look) (levels tree file)).run []
    ((levels tree file).head? = some (tree.absolute (Path.ofText file)).parent ∧
      (levels tree file).IsChain (fun level above => above = level.parent ∧ above ≠ level) ∧
      ∃ top, (levels tree file).getLast? = some top ∧ top.segments = []) ∧
    (walk.1.map Path.toText = root? tree file marker ∧
      walk.2 = (levels tree file).takeWhile (fun level => look level ≠ .found) ++ walk.1.toList ∧
      walk.2 <+: levels tree file) ∧
    (∀ i : Fin (levels tree file).length,
      root? tree file marker = some (levels tree file)[i].toText ↔
        tree.IsReadable ((levels tree file)[i] ++ Path.ofText marker) ∧
          ∀ j < i, ¬ tree.IsReadable ((levels tree file)[j] ++ Path.ofText marker)) ∧
    (root? tree file marker = none ↔
      ∀ level ∈ levels tree file, ¬ tree.IsReadable (level ++ Path.ofText marker)) ∧
    (nearest? (noted fun level => if look level = .denied then .absent else look level)
      (levels tree file)).run [] = walk := by
  intro look walk
  have hwalk : walk = _ := run_nearest?_noted look (levels tree file) []
  obtain ⟨hchain, hlast⟩ := Path.isChain_ancestors (tree.absolute (Path.ofText file)).parent
  refine ⟨⟨Path.head?_ancestors _, hchain, _, hlast, rfl⟩, ⟨?_, ?_, ?_⟩,
    root?_eq_some_getElem_iff, root?_eq_none_iff, ?_⟩
  · rw [hwalk, root?_eq]
  · rw [hwalk, List.nil_append]
  · rw [hwalk, List.nil_append]
    simpa using isPrefix_looked (fun level => look level = .found) (levels tree file)
  · have hsame : ∀ level, (if look level = .denied then .absent else look level) = Probe.found ↔
        look level = .found := by
      intro level
      by_cases h : look level = .denied <;> simp [h]
    rw [hwalk, run_nearest?_noted]
    simp only [ne_eq, hsame]

/-- The nearest marker may not be read: the search goes on and ends at the next one. -/
theorem root?_nearest_denied :
    let tree : FileTree :=
      { currentDirectory := "/a/b".toList, denied := ["/a/b".toList]
        files := ["/a/app.yaml".toList, "/a/b/app.yaml".toList, "/app.yaml".toList] }
    let file := "x/../c/d.jsonnet".toList
    let marker := "app.yaml".toList
    let look := fun level => tree.probe (level ++ Path.ofText marker)
    root? tree file marker = some "/a".toList ∧
      ((nearest? (noted look) (levels tree file)).run []).2.map Path.toText =
        ["/a/b/c".toList, "/a/b".toList, "/a".toList] := by
  intro tree file marker look
  obtain ⟨_, ⟨_, hlooked, _⟩, hroot, _⟩ := root?_nearest tree file marker
  have hnearest := (hroot ⟨2, by decide +kernel⟩).2 ⟨by decide +kernel, by decide +kernel⟩
  refine ⟨hnearest.trans (by decide +kernel), ?_⟩
  rw [hlooked]
  decide +kernel

end Application
end JsonnetLens
