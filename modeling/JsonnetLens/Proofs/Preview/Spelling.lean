import JsonnetLens.Proofs.Preview.Concurrency
import JsonnetLens.Proofs.Preview.History
import JsonnetLens.Proofs.Workspace.Component
/-!
# The spelling of a path

The root of an application is found from the normal form of a path, but its component is named by the
path as it is written.  Where a path has double dots the two can come apart, and
`nameSegments_normal_iff` says where they agree; `calls_normalize_iff` says the same of the calls
that previews make.
-/
namespace JsonnetLens

namespace Application

open JsonnetLens.Path (dots)

variable {p level : Path} {path : Text}

/-! ## Names -/

/-- **A path with double dots that is written below the components** never has the name of its
normal form. -/
theorem nameSegments_normal_ne {front : List Text} {last : Text} (h : p.slashes ≠ 0)
    (hlevel : level ∈ p.normal.parent.ancestors)
    (hp : p.segments = (level ++ components).segments ++ (front ++ [last]))
    (hdots : dots ∈ front ++ [last]) :
    nameSegments (level ++ components) p.normal ≠ front ++ [(Path.splitSuffix last).1] := by
  have hnormal : dots ∉ p.normal.segments := Path.dots_not_mem_normal h
  have hdirectory : dots ∉ (level ++ components).segments :=
    dots_not_mem_append_components (dots_not_mem_ancestor h hlevel)
  -- with a double dot only at the end the normal form is shorter than what was written
  have hshort : dots ∉ front →
      p.normal.segments = ((level ++ components).segments ++ front).dropLast := by
    intro hfront
    obtain rfl : dots = last := by simpa [hfront] using hdots
    have hclean : dots ∉ (level ++ components).segments ++ front := fun hmem =>
      (List.mem_append.1 hmem).elim hdirectory hfront
    have hwritten : p = ⟨p.slashes, (level ++ components).segments ++ front ++ [dots]⟩ := by
      rw [List.append_assoc, ← hp]
    rw [hwritten]
    exact Path.normal_append_dots h hclean
  intro heq
  rcases outside_or_self_or_below (level ++ components) p.normal with
    houtside | hself | ⟨front', last', hbelow⟩
  · rw [nameSegments_of_outside houtside] at heq
    obtain rfl : front = [] := by
      rcases front with _ | ⟨first, front⟩
      · rfl
      · simp at heq
    -- the last segment leads back to the level, which is above its own parent only at the top
    obtain rfl : dots = last := by simpa using hdots
    have hsame : p.normal.segments = level.segments := by
      simpa [append_components] using hshort List.not_mem_nil
    have hempty : level.segments = [] := by
      have hlength := (Path.mem_ancestors.1 hlevel).2.length_le
      rw [Path.parent, hsame, List.length_dropLast] at hlength
      exact List.eq_nil_of_length_eq_zero (by omega)
    rw [Path.stem, Path.name, hsame, hempty] at heq
    exact absurd heq (by decide)
  · rw [hself, nameSegments_self] at heq
    simp at heq
  · rw [hbelow, nameSegments_append] at heq
    obtain ⟨rfl, -⟩ := List.append_inj' heq rfl
    rw [hbelow] at hnormal hshort
    have hfront : dots ∉ front' := fun hmem => hnormal (by simp [hmem])
    have hlength := congrArg List.length (hshort hfront)
    simp only [List.length_append, List.length_dropLast, List.length_singleton] at hlength
    omega

/-- **Where a path is named as its normal form.**  A path without double dots is; one with double
dots is when it is not written below the components, its normal form is named by its last segment, and
this segment has the same stem. -/
theorem nameSegments_normal_iff (h : p.slashes ≠ 0) (hlevel : level ∈ p.normal.parent.ancestors) :
    nameSegments (level ++ components) p = nameSegments (level ++ components) p.normal ↔
      dots ∉ p.segments ∨
        (p.relativeTo? (level ++ components) = none ∧
          NamedByStem (level ++ components) p.normal ∧ p.stem = p.normal.stem) := by
  by_cases hdots : dots ∈ p.segments
  · rw [or_iff_right (not_not.2 hdots)]
    have hdirectory : dots ∉ (level ++ components).segments :=
      dots_not_mem_append_components (dots_not_mem_ancestor h hlevel)
    rcases outside_or_self_or_below (level ++ components) p with
      houtside | hself | ⟨front, last, hbelow⟩
    · rw [nameSegments_of_outside houtside, eq_comm, nameSegments_eq_singleton_iff]
      simp [houtside]
    · rw [hself] at hdots
      exact absurd hdots hdirectory
    · have hp : p.segments = (level ++ components).segments ++ (front ++ [last]) :=
        congrArg Path.segments hbelow
      rw [hp] at hdots
      have hne := nameSegments_normal_ne h hlevel hp
        ((List.mem_append.1 hdots).resolve_left hdirectory)
      have hinside : p.relativeTo? (level ++ components) ≠ none := by
        rw [hbelow, Path.relativeTo?_below]
        exact Option.some_ne_none _
      have hnamed : nameSegments (level ++ components) p = front ++ [(Path.splitSuffix last).1] := by
        rw [hbelow, nameSegments_append]
      rw [hnamed]
      exact iff_of_false (Ne.symm hne) fun hand => hinside hand.1
  · simp [hdots, Path.normal_of_not_mem hdots]

theorem root?_normalizePath (h : (Path.ofText path).slashes ≠ 0) (tree : FileTree) (marker : Text) :
    root? tree (normalizePath path) marker = root? tree path marker := by
  have hnormal : (Path.ofText (normalizePath path)).slashes ≠ 0 := by
    rwa [Path.ofText_normalizePath]
  have hlevels : levels tree (normalizePath path) = levels tree path := by
    rw [levels_of_slashes tree h, levels_of_slashes tree hnormal, Path.ofText_normalizePath,
      Path.normal_of_not_mem (Path.dots_not_mem_normal h)]
  rw [root?_eq, root?_eq, hlevels]

end Application

theorem applicationArguments_injective {environment : Json} {component component' : Text}
    (h : applicationArguments environment component = applicationArguments environment component') :
    component = component' := by
  have hfourth := congrArg (fun arguments => arguments[3]?) h
  exact WideText.ofText_injective (Json.string.inj (Option.some.inj hfourth))

namespace PreviewCache

open Application

variable {ι : Type} [Compiler ι] {settings : Settings} {tree : FileTree}
  {root path path' uri uri' : Text}

/-! ## Calls -/

/-- The calls that the preview of a document makes if nothing is there. -/
def firstCalls (compiler : ι) (settings : Settings) (tree : FileTree) (document : Document) :
    List Call :=
  ((generate tree document).perform (fresh compiler settings)).2.compiler.calls

theorem firstCalls_eq (compiler : ι) (settings : Settings) (tree : FileTree) (document : Document) :
    firstCalls compiler settings tree document = (call? settings tree document).toList := by
  have hcalls := calls_generate tree document (fresh compiler settings)
  have hmissing : (fresh compiler settings).missing [document] = [document] := rfl
  rw [hmissing, List.flatMap_singleton] at hcalls
  exact hcalls

theorem firstCalls_eq_iff (compiler : ι) {document document' : Document} :
    firstCalls compiler settings tree document = firstCalls compiler settings tree document' ↔
      call? settings tree document = call? settings tree document' := by
  rw [firstCalls_eq, firstCalls_eq]
  rcases call? settings tree document with _ | call <;>
    rcases call? settings tree document' with _ | call' <;> simp

omit [Compiler ι] in
theorem call?_of_root (hroot : root? tree path settings.marker = some root) (uri : Text) :
    call? settings tree ⟨uri, path⟩ = (componentName root path).toOption.map fun component =>
      ⟨.application, applicationArguments settings.environment component, root⟩ := by
  unfold call? plan
  dsimp only
  rw [hroot]
  dsimp only
  rcases componentName root path with fault | component <;> rfl

theorem call?_eq_iff (hroot : root? tree path settings.marker = some root)
    (hroot' : root? tree path' settings.marker = some root) :
    call? settings tree ⟨uri, path⟩ = call? settings tree ⟨uri', path'⟩ ↔
      componentName root path = componentName root path' := by
  have hfault := @componentName_eq_error_iff root path
  have hfault' := @componentName_eq_error_iff root path'
  rw [call?_of_root hroot, call?_of_root hroot']
  refine ⟨fun h => ?_, fun h => by rw [h]⟩
  rcases hname : componentName root path with fault | component <;>
    rcases hname' : componentName root path' with fault' | component'
  · rw [(hfault.1 hname).1, (hfault'.1 hname').1]
  · simp [hname, hname', Except.toOption] at h
  · simp [hname, hname', Except.toOption] at h
  · simp only [hname, hname', Except.toOption, Option.map_some, Option.some.injEq,
      Call.mk.injEq, true_and, and_true] at h
    rw [applicationArguments_injective h]

theorem firstCalls_of_name (compiler : ι) (settings : Settings)
    (hroot : root? tree path settings.marker = some root) {component : Text}
    (hname : componentName root path = .ok component) (uri : Text) :
    firstCalls compiler settings tree ⟨uri, path⟩ =
      [⟨.application, applicationArguments settings.environment component, root⟩] := by
  rw [firstCalls_eq, call?_of_root hroot, hname]
  rfl

/-- **A path and its normal form lead to the same calls** just when the path has no double dots, or is
not written below the components while its normal form is named by its last segment and this has the
same stem.  In every case what is called is the application in its root. -/
theorem calls_normalize_iff (compiler : ι) (settings : Settings) (h : (Path.ofText path).slashes ≠ 0)
    (hroot : root? tree path settings.marker = some root) (uri uri' : Text) :
    let written := firstCalls compiler settings tree ⟨uri, path⟩
    let normal := firstCalls compiler settings tree ⟨uri', normalizePath path⟩
    let directory := Path.ofText root ++ components
    (written = normal ↔
      Path.dots ∉ (Path.ofText path).segments ∨
        ((Path.ofText path).relativeTo? directory = none ∧
          NamedByStem directory (Path.ofText path).normal ∧
          (Path.ofText path).stem = (Path.ofText path).normal.stem)) ∧
    ∀ call ∈ written ++ normal, call.mode = .application ∧ call.directory = root := by
  have hroot' : root? tree (normalizePath path) settings.marker = some root := by
    rw [root?_normalizePath h, hroot]
  intro written normal directory
  constructor
  · obtain ⟨level, hlevel, -, rfl⟩ := exists_level_of_root? hroot
    have hread := Path.ofText_toText (isRead_of_mem_levels hlevel)
    rw [levels_of_slashes tree h] at hlevel
    have hcalls : written = normal ↔
        componentName level.toText path = componentName level.toText (normalizePath path) :=
      (firstCalls_eq_iff compiler).trans (call?_eq_iff hroot hroot')
    rw [hcalls, componentName_eq_iff, Path.ofText_normalizePath, hread]
    simpa only [directory, hread] using nameSegments_normal_iff h hlevel
  · intro call hcall
    simp only [written, normal, firstCalls_eq, call?_of_root hroot, call?_of_root hroot',
      List.mem_append, Option.mem_toList, Option.map_eq_some_iff] at hcall
    rcases hcall with ⟨component, -, rfl⟩ | ⟨component, -, rfl⟩ <;> exact ⟨rfl, rfl⟩

/-- A file directly in the components, found through another directory: both paths name it by its
stem. -/
theorem calls_normalize_beside :
    let tree : FileTree := { files := ["/app/app.yaml".toList, "/app/components/a.jsonnet".toList] }
    let path := "/app/x/../components/a.jsonnet".toList
    let calls := fun path => firstCalls ({} : Script) {} tree ⟨"file:///a".toList, path⟩
    (Path.ofText path).slashes ≠ 0 ∧ root? tree path "app.yaml".toList = some "/app".toList ∧
      normalizePath path = "/app/components/a.jsonnet".toList ∧
      calls path = calls (normalizePath path) ∧
      calls path = [⟨.application, applicationArguments (.ofText "default".toList) ['a'],
        "/app".toList⟩] := by
  intro tree path calls
  have hslashes : (Path.ofText path).slashes ≠ 0 := by decide +kernel
  have hroot : root? tree path "app.yaml".toList = some "/app".toList := by decide +kernel
  have hname : componentName "/app".toList path = .ok ['a'] :=
    Attempt.eq_ok_of_toOption (by decide +kernel)
  obtain ⟨hiff, _⟩ := calls_normalize_iff ({} : Script) {} hslashes hroot
    "file:///a".toList "file:///a".toList
  have hnamed : NamedByStem (Path.ofText "/app".toList ++ components) (Path.ofText path).normal :=
    (nameSegments_eq_singleton_iff (s := ['a'])).1 (by decide +kernel) |>.1
  refine ⟨hslashes, hroot, by decide +kernel, ?_, ?_⟩
  · exact hiff.2 (.inr ⟨by decide +kernel, hnamed, by decide +kernel⟩)
  · exact firstCalls_of_name _ {} hroot hname _

/-- A component deeper down, found through another directory: the compiler is asked for another
component. -/
theorem not_calls_normalize_deeper :
    let tree : FileTree :=
      { files := ["/app/app.yaml".toList, "/app/components/db/redis.jsonnet".toList] }
    let path := "/app/x/../components/db/redis.jsonnet".toList
    let call := fun component : Text =>
      (⟨.application, applicationArguments (.ofText "default".toList) component, "/app".toList⟩ : Call)
    let calls := fun path => firstCalls ({} : Script) {} tree ⟨"file:///a".toList, path⟩
    calls path = [call "redis".toList] ∧
      calls (normalizePath path) = [call "db/redis".toList] ∧
      ¬ ∀ (settings : Settings) (tree : FileTree) (path root uri uri' : Text),
        (Path.ofText path).slashes ≠ 0 → root? tree path settings.marker = some root →
        firstCalls ({} : Script) settings tree ⟨uri, path⟩ =
          firstCalls ({} : Script) settings tree ⟨uri', normalizePath path⟩ := by
  intro tree path call calls
  have hslashes : (Path.ofText path).slashes ≠ 0 := by decide +kernel
  have hroot : root? tree path "app.yaml".toList = some "/app".toList := by decide +kernel
  have hroot' : root? tree (normalizePath path) "app.yaml".toList = some "/app".toList := by
    decide +kernel
  have hname : componentName "/app".toList path = .ok "redis".toList :=
    Attempt.eq_ok_of_toOption (by decide +kernel)
  have hname' : componentName "/app".toList (normalizePath path) = .ok "db/redis".toList :=
    Attempt.eq_ok_of_toOption (by decide +kernel)
  have hcalls : calls path = [call "redis".toList] :=
    firstCalls_of_name _ {} hroot hname _
  have hcalls' : calls (normalizePath path) = [call "db/redis".toList] :=
    firstCalls_of_name _ {} hroot' hname' _
  refine ⟨hcalls, hcalls', fun h => ?_⟩
  have hsame : [call "redis".toList] = [call "db/redis".toList] :=
    hcalls.symm.trans ((h {} tree path _ _ _ hslashes hroot).trans hcalls')
  have harguments := congrArg Call.arguments (List.head_eq_of_cons_eq hsame)
  exact absurd (applicationArguments_injective harguments) (by decide)

end PreviewCache
end JsonnetLens
