import JsonnetLens.Proofs.Compiler.Arguments
import JsonnetLens.Proofs.Preview.Concurrency
import JsonnetLens.Proofs.Workspace.Component
/-!
# When a preview answers

With settings that are texts and a compiler that answers, every compilation that is planned comes to
an entry (`exists_entry_of_order`), and only for the directory of components there is no plan.  So a
preview answers and leaves an entry, except for that directory when nothing of it is there:
`generate_answers_iff`.
-/
namespace JsonnetLens.PreviewCache

variable {ι : Type} {settings : Settings} {tree : FileTree} {document : Document}

/-! ## Plans -/

/-- **There is a plan for every document** but the directory of components. -/
theorem plan_eq_error_iff (h : (Path.ofText document.path).slashes ≠ 0) {fault : Fault} :
    plan settings tree document = .error fault ↔
      fault = .namelessComponent ∧
        Application.IsComponentsDirectory tree settings.marker document.path := by
  rw [← Application.exists_nameless_iff h]
  unfold plan
  rcases Application.root? tree document.path settings.marker with _ | root
  · simp
  · have hname := @Application.componentName_eq_error_iff root document.path fault
    simp only [Option.some.injEq, exists_eq_left', ← hname]
    rcases Application.componentName root document.path with fault' | component <;>
      simp [bind, Except.bind, pure, Except.pure]

theorem isText_of_plan (h : settings.IsTyped) {mode : Mode} {arguments : List Json} {directory : Text}
    (hplan : plan settings tree document = .ok (mode, arguments, directory)) :
    ∀ argument ∈ arguments, argument.IsText := by
  unfold plan at hplan
  rcases hroot : Application.root? tree document.path settings.marker with _ | root
  · rw [hroot] at hplan
    cases hplan
    exact settings.isText_standaloneArguments document.path
  · rw [hroot] at hplan
    obtain ⟨component, _, hplan⟩ := Attempt.exists_of_bind_eq_ok hplan
    cases hplan
    exact isText_applicationArguments h.environment component

/-! ## Compilations -/

/-- A compilation with arguments that are texts comes to an entry, also when it was refused. -/
theorem exists_entry_of_isText {compilation : Pending}
    (h : ∀ argument ∈ compilation.arguments, argument.IsText) :
    ∃ entry, compilation.entry = .ok entry := by
  obtain ⟨uri, directory, arguments, outcome⟩ := compilation
  cases outcome with
  | finished result => exact ⟨_, rfl⟩
  | refused reason =>
    obtain ⟨command, hcommand⟩ := Command.plainLine_of_isText h
    refine ⟨entryOf { exitCode := -1, stderr := reason, command } directory, ?_⟩
    rw [Pending.entry, Pending.result]
    simp only [hcommand]
    rfl

variable [Compiler ι] {cache cache' : PreviewCache ι} {content : Text}

theorem exists_entry_of_order (hsettings : settings.IsTyped) {compiler : ι}
    (hcompiler : Compiler.Answers compiler) {planned : Mode × List Json × Text}
    (hplan : plan settings tree document = .ok planned) :
    ∃ compilation compiler', order settings tree document compiler = (.ok compilation, compiler') ∧
      ∃ entry, compilation.entry = .ok entry := by
  obtain ⟨mode, arguments, directory⟩ := planned
  have harguments := isText_of_plan hsettings hplan
  obtain ⟨outcome, houtcome⟩ := hcompiler mode arguments directory harguments
  rw [order, hplan]
  dsimp only
  rw [houtcome]
  exact ⟨⟨document.uri, directory, arguments, outcome⟩, _, rfl, exists_entry_of_isText harguments⟩

/-! ## Previews -/

/-- A preview that answers leaves an entry, the earlier one if there was one, and no other is
touched. -/
theorem exists_entry_of_generate
    (h : (generate tree document).perform cache = (.ok content, cache')) :
    ∃ entry, cache'.get? document = some entry ∧ content = entry.content ∧
      (∀ earlier, cache.get? document = some earlier → entry = earlier ∧ cache' = cache) ∧
      ∀ uri ≠ document.uri, cache'.entries.get? uri = cache.entries.get? uri := by
  obtain ⟨_, _, hothers, _⟩ := generate_frame h
  rcases generate_eq_ok_iff.1 h with ⟨entry, hget, hcontent, rfl⟩ |
    ⟨hnone, result, directory, compiler, _, hcontent, rfl⟩
  · refine ⟨entry, hget, hcontent, fun earlier hearlier => ⟨?_, rfl⟩, hothers⟩
    rw [hget] at hearlier
    exact Option.some.inj hearlier
  · refine ⟨_, get?_store _ _ _, hcontent, fun earlier hearlier => ?_, hothers⟩
    rw [hnone] at hearlier
    cases hearlier

/-- The directory of components has no plan, so nothing is called and nothing changes. -/
theorem generate_of_nameless (h : (Path.ofText document.path).slashes ≠ 0)
    (hcontains : cache.contains document = false)
    (hdirectory : Application.IsComponentsDirectory tree cache.settings.marker document.path) :
    (generate tree document).perform cache = (.error .namelessComponent, cache) := by
  have hnone : cache.get? document = none :=
    Option.isNone_iff_eq_none.1 (Option.isSome_eq_false_iff.1 hcontains)
  rw [perform_generate, perform_start, hnone, order, (plan_eq_error_iff h).2 ⟨rfl, hdirectory⟩]
  rfl

/-- A document of which nothing is there is compiled as planned, and the preview answers. -/
theorem exists_generate_of_plan (hsettings : cache.settings.IsTyped)
    (hcompiler : Compiler.Answers cache.compiler) (hnone : cache.get? document = none)
    {planned : Mode × List Json × Text}
    (hplan : plan cache.settings tree document = .ok planned) :
    ∃ content cache', (generate tree document).perform cache = (.ok content, cache') := by
  obtain ⟨compilation, compiler', horder, entry, hentry⟩ :=
    exists_entry_of_order hsettings hcompiler hplan
  refine ⟨entry.content, { cache with compiler := compiler' }.putAll [compilation], ?_⟩
  rw [perform_generate, perform_start, hnone, horder]
  simp only [Except.map, Ticket.answer, Pending.answer, hentry]
  rfl

/-- **When a preview answers.**  With settings that are texts and a compiler that finishes or is
refused, a preview of a document with an absolute path answers unless its path is the directory of
components of its application and nothing of it is there; then it fails and changes nothing.  What it
answers is the content of an entry that is there afterwards; an earlier entry stays what it was, and so
does every other one. -/
theorem generate_answers_iff (tree : FileTree) (h : (Path.ofText document.path).slashes ≠ 0)
    (hsettings : cache.settings.IsTyped) (hcompiler : Compiler.Answers cache.compiler) :
    let nameless := cache.contains document = false ∧
      Application.IsComponentsDirectory tree cache.settings.marker document.path
    ((∃ content cache', (generate tree document).perform cache = (.ok content, cache')) ↔
      ¬ nameless) ∧
    (nameless → (generate tree document).perform cache = (.error .namelessComponent, cache)) ∧
    ∀ content cache', (generate tree document).perform cache = (.ok content, cache') →
      ∃ entry, cache'.get? document = some entry ∧ content = entry.content ∧
        (∀ earlier, cache.get? document = some earlier → entry = earlier ∧ cache' = cache) ∧
        ∀ uri ≠ document.uri, cache'.entries.get? uri = cache.entries.get? uri := by
  intro nameless
  have hfails : nameless →
      (generate tree document).perform cache = (.error .namelessComponent, cache) :=
    fun hnameless => generate_of_nameless h hnameless.1 hnameless.2
  refine ⟨⟨?_, fun hnamed => ?_⟩, hfails, fun content cache' => exists_entry_of_generate⟩
  · rintro ⟨content, cache', hok⟩ hnameless
    rw [hfails hnameless] at hok
    cases hok
  · rcases hget : cache.get? document with _ | entry
    · have hcontains : cache.contains document = false := congrArg Option.isSome hget
      rcases hplan : plan cache.settings tree document with fault | planned
      · exact absurd ⟨hcontains, ((plan_eq_error_iff h).1 hplan).2⟩ hnamed
      · exact exists_generate_of_plan hsettings hcompiler hget hplan
    · exact ⟨entry.content, cache, generate_eq_ok_iff.2 (.inl ⟨entry, hget, rfl, rfl⟩)⟩

/-- A component whose process is refused: the preview answers, and the failure stays. -/
theorem generate_answers_refused :
    let tree : FileTree := { files := ["/app/app.yaml".toList] }
    let document : Document :=
      ⟨"file:///app/components/db/a.jsonnet".toList, "/app/components/db/a.jsonnet".toList⟩
    let other := "file:///w/b.jsonnet".toList
    let cache : PreviewCache Shell :=
      { compiler := { fates := [.refused ['x']] }, entries := [(other, .output ['1'])] }
    let failure : Failure :=
      ⟨"Command failed: show default -c db/a -o json\nx".toList, some "/app".toList⟩
    (Path.ofText document.path).slashes ≠ 0 ∧ cache.settings.IsTyped ∧
      Compiler.Answers cache.compiler ∧
      ∃ cache', (generate tree document).perform cache = (.ok [], cache') ∧
        cache'.get? document = some (.failed failure) ∧
        cache'.entries.get? other = some (.output ['1']) := by
  intro tree document other cache failure
  have hslashes : (Path.ofText document.path).slashes ≠ 0 := by decide +kernel
  have htyped : Settings.IsTyped {} := ⟨⟨_, rfl⟩, ⟨_, rfl⟩, ⟨_, rfl⟩⟩
  have hanswers : Compiler.Answers cache.compiler := Compiler.answers_shell htyped rfl
  obtain ⟨hiff, _, hentry⟩ := generate_answers_iff tree hslashes htyped hanswers
  obtain ⟨content, cache', hok⟩ := hiff.2 (by decide +kernel)
  obtain ⟨entry, hget, hcontent, _, hothers⟩ := hentry content cache' hok
  have hfailed : ((generate tree document).perform cache).2.get? document =
      some (.failed failure) := by decide +kernel
  rw [hok] at hfailed
  obtain rfl : entry = .failed failure := Option.some.inj (hget.symm.trans hfailed)
  obtain rfl : content = [] := hcontent
  exact ⟨hslashes, htyped, hanswers, cache', hok, hfailed, hothers other (by decide)⟩

/-- A file with the path of the directory of components: its preview fails before the compiler is
called and leaves no entry. -/
theorem not_generate_answers_components :
    let tree : FileTree := { files := ["/app/app.yaml".toList, "/app/components".toList] }
    let document : Document := ⟨"file:///app/components".toList, "/app/components".toList⟩
    let fresh : PreviewCache Script := { compiler := {} }
    let answered := (generate tree document).perform fresh
    (answered.1 = .error .namelessComponent ∧ answered.2.compiler.calls.isEmpty ∧
      answered.2.get? document = none) ∧
    ¬ ∀ (tree : FileTree) (document : Document) (cache : PreviewCache Script),
      (Path.ofText document.path).slashes ≠ 0 → cache.settings.IsTyped →
      Compiler.Answers cache.compiler →
      ∃ content after, (generate tree document).perform cache = (.ok content, after) ∧
        (after.get? document).isSome := by
  intro tree document fresh answered
  have hslashes : (Path.ofText document.path).slashes ≠ 0 := by decide +kernel
  have htyped : Settings.IsTyped {} := ⟨⟨_, rfl⟩, ⟨_, rfl⟩, ⟨_, rfl⟩⟩
  have hanswer : answered.1 = .error .namelessComponent := by decide +kernel
  refine ⟨⟨hanswer, by decide +kernel, by decide +kernel⟩, fun hall => ?_⟩
  obtain ⟨content, after, hok, _⟩ :=
    hall tree document fresh hslashes htyped (Compiler.answers_script {})
  have hanswered : answered.1 = .ok content := congrArg Prod.fst hok
  rw [hanswer] at hanswered
  cases hanswered

end JsonnetLens.PreviewCache
