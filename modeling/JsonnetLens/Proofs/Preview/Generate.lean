import JsonnetLens.Preview.Cache
import JsonnetLens.Proofs.Workspace.Search
/-!
# What generating a preview does

`generate` either finds an entry and changes nothing, or compiles the document and stores what came
of it.  `generate_eq_ok_iff` says so with all that a compilation depends on; an entry that is there
before is there afterwards.
-/
namespace JsonnetLens.PreviewCache

variable {ι : Type}

/-- The directory in which a document is compiled: the root of its application, or its own. -/
def directoryOf (settings : Settings) (tree : FileTree) (document : Document) : Text :=
  (Application.root? tree document.path settings.marker).getD
    (Path.ofText document.path).parent.toText

theorem directory_of_plan {settings : Settings} {tree : FileTree} {document : Document} {mode : Mode}
    {arguments : List Json} {directory : Text}
    (h : plan settings tree document = .ok (mode, arguments, directory)) :
    directory = directoryOf settings tree document := by
  unfold plan at h
  unfold directoryOf
  rcases hr : Application.root? tree document.path settings.marker with _ | root
  · rw [hr] at h
    cases h
    rfl
  · rw [hr] at h
    obtain ⟨component, _, h⟩ := Attempt.exists_of_bind_eq_ok h
    cases h
    rfl

/-- A document with an absolute path is compiled in an absolute directory. -/
theorem directoryOf_eq_toText {document : Document} (h : (Path.ofText document.path).slashes ≠ 0)
    (settings : Settings) (tree : FileTree) :
    ∃ d : Path, d.slashes ≠ 0 ∧ directoryOf settings tree document = d.toText := by
  unfold directoryOf
  cases hr : Application.root? tree document.path settings.marker with
  | none => exact ⟨(Path.ofText document.path).parent, h, rfl⟩
  | some root =>
    obtain ⟨level, hlevel, _, rfl⟩ := Application.exists_level_of_root? hr
    refine ⟨level, ?_, rfl⟩
    rw [(Path.mem_ancestors.1 hlevel).1, Path.parent, FileTree.absolute_of_slashes tree h]
    exact h

section
variable [Compiler ι]

/-- The call that a preview makes: it is planned with the settings and answered by the compiler,
which is in state `compiler` afterwards. -/
def Calls (tree : FileTree) (document : Document) (cache : PreviewCache ι) (compilation : Pending)
    (compiler : ι) : Prop :=
  compilation.uri = document.uri ∧ ∃ mode,
    plan cache.settings tree document = .ok (mode, compilation.arguments, compilation.directory) ∧
    (Compiler.invoke mode compilation.arguments compilation.directory).perform cache.compiler =
      (.ok compilation.outcome, compiler)

/-- A compilation of a document in a directory, and its result. -/
def Compiles (tree : FileTree) (document : Document) (cache : PreviewCache ι) (result : Result)
    (directory : Text) (compiler : ι) : Prop :=
  ∃ compilation, Calls tree document cache compilation compiler ∧
    compilation.directory = directory ∧ compilation.result = .ok result

theorem start_eq_ok_iff {tree : FileTree} {document : Document} {cache cache' : PreviewCache ι}
    {ticket : Ticket} :
    (start tree document).perform cache = (.ok ticket, cache') ↔
      (∃ entry, cache.get? document = some entry ∧ ticket = .ready entry.content ∧ cache' = cache) ∨
      (cache.get? document = none ∧ ∃ compilation compiler,
        Calls tree document cache compilation compiler ∧
        ticket = .pending compilation ∧ cache' = { cache with compiler }) := by
  unfold start
  rw [Attempt.perform_get_bind]
  rcases hg : cache.get? document with _ | entry
  · simp only [Attempt.perform_bind_eq_ok, Attempt.perform_lift, callCompiler,
      Attempt.perform_onPart, Attempt.perform_pure, Prod.mk.injEq]
    constructor
    · rintro ⟨⟨mode, arguments, directory⟩, _, ⟨hp, rfl⟩, outcome, _, ⟨hc, rfl⟩, ⟨⟩, rfl⟩
      exact .inr ⟨trivial, _, _, ⟨rfl, mode, hp, Prod.ext hc rfl⟩, rfl, rfl⟩
    · rintro (⟨_, h, _⟩ | ⟨_, compilation, compiler, ⟨hu, mode, hp, hc⟩, rfl, rfl⟩)
      · cases h
      · refine ⟨(mode, compilation.arguments, compilation.directory), cache, ⟨hp, rfl⟩,
          compilation.outcome, { cache with compiler }, ⟨?_, ?_⟩, ?_⟩
        · rw [hc]
        · rw [hc]
        · rw [← hu]
          exact ⟨rfl, rfl⟩
  · simp only [Attempt.perform_pure, Prod.mk.injEq]
    constructor
    · rintro ⟨⟨⟩, rfl⟩
      exact .inl ⟨entry, rfl, rfl, rfl⟩
    · rintro (⟨_, ⟨⟩, rfl, rfl⟩ | ⟨h, _⟩)
      · exact ⟨rfl, rfl⟩
      · cases h

/-- The first half stores nothing, also where it fails. -/
theorem entries_start (tree : FileTree) (document : Document) (cache : PreviewCache ι) :
    ((start tree document).perform cache).2.entries = cache.entries := by
  unfold start
  rw [Attempt.perform_get_bind]
  rcases cache.get? document with _ | entry
  · rw [Attempt.perform_bind, Attempt.perform_lift]
    rcases plan cache.settings tree document with fault | ⟨mode, arguments, directory⟩
    · rfl
    · simp only [Attempt.state_bind_pure, callCompiler, Attempt.perform_onPart]
  · rfl

end

theorem settle_eq_ok_iff {compilation : Pending} {cache cache' : PreviewCache ι} {content : Text} :
    (settle compilation).perform cache = (.ok content, cache') ↔
      ∃ result, compilation.result = .ok result ∧
        content = (entryOf result compilation.directory).content ∧
        cache' = store compilation.uri (entryOf result compilation.directory) cache := by
  unfold settle
  simp only [Attempt.perform_bind_eq_ok, Attempt.perform_lift, Attempt.perform_modify,
    Attempt.perform_pure, Prod.mk.injEq]
  constructor
  · rintro ⟨result, _, ⟨hr, rfl⟩, _, _, ⟨_, rfl⟩, ⟨⟩, rfl⟩
    exact ⟨result, hr, rfl, rfl⟩
  · rintro ⟨result, hr, rfl, rfl⟩
    exact ⟨result, cache, ⟨hr, rfl⟩, (), _, ⟨trivial, rfl⟩, rfl, rfl⟩

theorem entries_settle (compilation : Pending) (cache : PreviewCache ι) :
    ((settle compilation).perform cache).2.entries =
      match compilation.result with
      | .error _ => cache.entries
      | .ok result =>
        cache.entries.insert compilation.uri (entryOf result compilation.directory) := by
  rw [settle, Attempt.perform_bind, Attempt.perform_lift]
  rcases compilation.result with fault | result <;> rfl

theorem entryOf_of_ne_zero {result : Result} (h : result.exitCode ≠ 0) (directory : Text) :
    entryOf result directory =
      .failed ⟨banner result.command ++ '\n' :: result.stderr, some directory⟩ :=
  if_neg h

theorem eq_of_entryOf_eq_failed {result : Result} {directory : Text} {failure : Failure}
    (h : entryOf result directory = .failed failure) :
    failure = ⟨banner result.command ++ '\n' :: result.stderr, some directory⟩ := by
  unfold entryOf at h
  split at h
  · cases h
  · exact (Entry.failed.inj h).symm

@[simp] theorem entries_store (uri : Text) (entry : Entry) (cache : PreviewCache ι) :
    (store uri entry cache).entries = cache.entries.insert uri entry := rfl

theorem get?_store (document : Document) (entry : Entry) (cache : PreviewCache ι) :
    (store document.uri entry cache).get? document = some entry := by
  rw [get?, entries_store, Table.get?_insert_self]

variable [Compiler ι]

/-- **A preview that succeeds** finds an entry and changes nothing, or compiles and stores. -/
theorem generate_eq_ok_iff {tree : FileTree} {document : Document} {cache cache' : PreviewCache ι}
    {content : Text} :
    (generate tree document).perform cache = (.ok content, cache') ↔
      (∃ entry, cache.get? document = some entry ∧ content = entry.content ∧ cache' = cache) ∨
      (cache.get? document = none ∧ ∃ result directory compiler,
        Compiles tree document cache result directory compiler ∧
        content = (entryOf result directory).content ∧
        cache' = store document.uri (entryOf result directory) { cache with compiler }) := by
  unfold generate
  simp only [Attempt.perform_bind_eq_ok, start_eq_ok_iff]
  constructor
  · rintro ⟨ticket, _, ⟨entry, he, rfl, rfl⟩ | ⟨hn, compilation, compiler, hc, rfl, rfl⟩, h⟩
    · rw [redeem, Attempt.perform_pure] at h
      cases h
      exact .inl ⟨entry, he, rfl, rfl⟩
    · obtain ⟨result, hr, rfl, rfl⟩ := settle_eq_ok_iff.1 h
      exact .inr ⟨hn, result, _, compiler, ⟨compilation, hc, rfl, hr⟩, rfl, by rw [hc.1]⟩
  · rintro (⟨entry, he, rfl, rfl⟩ | ⟨hn, result, _, compiler, ⟨compilation, hc, rfl, hr⟩, rfl, rfl⟩)
    · exact ⟨_, _, .inl ⟨entry, he, rfl, rfl⟩, rfl⟩
    · exact ⟨_, _, .inr ⟨hn, compilation, compiler, hc, rfl, rfl⟩,
        settle_eq_ok_iff.2 ⟨result, hr, rfl, by rw [hc.1]⟩⟩

theorem generate_of_failed {tree : FileTree} {document : Document} {cache : PreviewCache ι}
    {result : Result} {directory : Text} {compiler : ι} (hn : cache.get? document = none)
    (hc : Compiles tree document cache result directory compiler) (hcode : result.exitCode ≠ 0) :
    ∃ content cache', (generate tree document).perform cache = (.ok content, cache') ∧
      cache'.get? document =
        some (.failed ⟨banner result.command ++ '\n' :: result.stderr, some directory⟩) := by
  have hg := generate_eq_ok_iff.2 (.inr ⟨hn, result, directory, compiler, hc, rfl, rfl⟩)
  refine ⟨_, _, hg, ?_⟩
  rw [get?_store, entryOf_of_ne_zero hcode]

theorem get?_generate {tree : FileTree} {document : Document} {cache cache' : PreviewCache ι}
    {content : Text} (h : (generate tree document).perform cache = (.ok content, cache')) {uri : Text}
    {entry : Entry} (he : cache.entries.get? uri = some entry) :
    cache'.entries.get? uri = some entry := by
  rcases generate_eq_ok_iff.1 h with ⟨_, _, _, rfl⟩ | ⟨hn, _, _, _, _, _, rfl⟩
  · exact he
  · have hne : uri ≠ document.uri := fun hu => by
      rw [get?, ← hu, he] at hn
      cases hn
    rw [entries_store, Table.get?_insert_of_ne hne]
    exact he

end JsonnetLens.PreviewCache
