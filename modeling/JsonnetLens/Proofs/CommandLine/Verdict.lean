import JsonnetLens.CommandLine.Program
import JsonnetLens.Proofs.Compiler.Shell
import JsonnetLens.Proofs.Diagnostic.Ownership
import JsonnetLens.Proofs.Preview.Generate
/-!
# The verdict of the command line

Each command starts one process and takes its verdict from it.  What is started depends on the path
and the settings without the output format (`compile_eq_ok`), so both commands start the same, and
both exit with 0 just when it ends in time with 0 (`verdict_is_compiler`).
-/
namespace JsonnetLens

namespace Pending

theorem exitCode_of_refused {compilation : Pending} {reason : Text} {result : Result}
    (houtcome : compilation.outcome = .refused reason) (h : compilation.result = .ok result) :
    result.exitCode = -1 := by
  rw [Pending.result, houtcome] at h
  obtain ⟨command, _, h⟩ := Attempt.exists_of_bind_eq_ok h
  rw [← Except.ok.inj h]

theorem exitCode_eq_zero_iff {compilation : Pending} {settings : Settings} {executable : Json}
    {command : Text} {fate : Fate} {result : Result}
    (hconclude : (Shell.conclude settings executable command fate).1 = .ok compilation.outcome)
    (h : compilation.result = .ok result) : result.exitCode = 0 ↔ fate.Succeeds settings := by
  rcases houtcome : compilation.outcome with found | reason
  · rw [Pending.result, houtcome] at h
    obtain rfl := Except.ok.inj h
    exact Shell.exitCode_of_conclude (hconclude.trans (congrArg Except.ok houtcome))
  · rw [exitCode_of_refused houtcome h]
    refine ⟨nofun, fun ⟨_, _, hruns, htime⟩ => ?_⟩
    -- a process that runs is not refused
    rw [hruns, Shell.conclude, if_pos htime, houtcome] at hconclude
    cases hconclude

end Pending

namespace CommandLine

/-- What starting the first process leads to. -/
def World.fate (world : World) : Fate := (nextAnswer (.runs 0 [] []) world.fates).1

/-- The process that compiles a document, with what is done to it. -/
def World.start (world : World) (settings : Settings) (mode : Mode) (arguments : List Json)
    (directory : Text) : Start where
  arguments := settings.executable mode :: arguments
  directory
  interventions := if world.fate.exceeds settings then [.kill, .await] else []

/-- **Compiling starts one process**, and succeeds just when that does. -/
theorem compile_eq_ok [Nesting] {world : World} {request : Request} {compiled : Compiled}
    (h : compile world request = .ok compiled) :
    documentAt world.tree request.path = .ok compiled.document ∧
    settingsFor request world.environ = .ok compiled.settings ∧
    ∃ mode arguments directory result,
      PreviewCache.plan compiled.settings world.tree compiled.document =
        .ok (mode, arguments, directory) ∧
      compiled.started = [world.start compiled.settings mode arguments directory] ∧
      compiled.entry = some (PreviewCache.entryOf result directory) ∧
      world.fate.isEndless compiled.settings = false ∧
      (result.exitCode = 0 ↔ world.fate.Succeeds compiled.settings) := by
  obtain ⟨document, hdocument, h⟩ := Attempt.exists_of_bind_eq_ok h
  obtain ⟨settings, hsettings, h⟩ := Attempt.exists_of_bind_eq_ok h
  dsimp only at h
  generalize hgenerate :
    (PreviewCache.generate (ι := Shell) world.tree document).perform _ = answer at h
  obtain ⟨answer, cache⟩ := answer
  obtain ⟨content, rfl, h⟩ := Attempt.exists_of_bind_eq_ok h
  obtain rfl := Except.ok.inj h
  obtain ⟨_, hthere, _⟩ | ⟨_, result, directory, shell, ⟨compilation, hcalls, rfl, hresult⟩, _, rfl⟩ :=
    PreviewCache.generate_eq_ok_iff.1 hgenerate
  -- the cache is new, so nothing is there
  · cases hthere
  obtain ⟨_, mode, hplan, hinvoke⟩ := hcalls
  obtain ⟨command, _, houtcome, hstarted⟩ := Shell.invoke_eq_ok hinvoke
  refine ⟨hdocument, hsettings, mode, compilation.arguments, compilation.directory, result, hplan, ?_,
    PreviewCache.get?_store _ _ _, ?_, Pending.exitCode_eq_zero_iff houtcome hresult⟩
  · rw [Shell.interventions_conclude] at hstarted
    exact hstarted
  · exact (Shell.exists_conclude_iff _ _ _ _).1 ⟨_, houtcome⟩

/-- Requests for one environment differ in the format at most. -/
theorem settingsFor_of_env [Nesting] {first second : Request} (henv : second.env = first.env)
    {environ : Environ} {s t : Settings} (hs : settingsFor first environ = .ok s)
    (ht : settingsFor second environ = .ok t) : t = { s with outputFormat := t.outputFormat } := by
  obtain ⟨plain, hplain, hs⟩ := Attempt.exists_of_bind_eq_ok hs
  obtain ⟨plain', hplain', ht⟩ := Attempt.exists_of_bind_eq_ok ht
  obtain rfl := Except.ok.inj (hplain.symm.trans hplain')
  obtain rfl := Except.ok.inj hs
  obtain rfl := Except.ok.inj ht
  rw [henv]

/-! ## The output format

It has no part in what is started, nor in when a process is over. -/

section
variable (settings : Settings) (format : OutputFormat)

theorem exceeds_outputFormat (fate : Fate) :
    fate.exceeds { settings with outputFormat := format } = fate.exceeds settings := by
  cases fate <;> rfl

theorem plan_outputFormat (tree : FileTree) (document : Document) :
    PreviewCache.plan { settings with outputFormat := format } tree document =
      PreviewCache.plan settings tree document := rfl

theorem start_outputFormat (world : World) (mode : Mode) (arguments : List Json) (directory : Text) :
    world.start { settings with outputFormat := format } mode arguments directory =
      world.start settings mode arguments directory := by
  unfold World.start
  rw [exceeds_outputFormat]
  cases mode <;> rfl

theorem succeeds_outputFormat (fate : Fate) :
    fate.Succeeds { settings with outputFormat := format } ↔ fate.Succeeds settings := Iff.rfl

end

/-! ## What the commands make of it -/

/-- The exit code that an entry leads to. -/
def exitCodeOf : Option Entry → Nat
  | some (.failed _) => 1
  | _ => 0

theorem exitCodeOf_entryOf (result : Result) (directory : Text) :
    exitCodeOf (some (PreviewCache.entryOf result directory)) =
      if result.exitCode = 0 then 0 else 1 := by
  unfold PreviewCache.entryOf
  split <;> rfl

theorem exitCodeOf_compile [Nesting] {world : World} {request : Request} {compiled : Compiled}
    (h : compile world request = .ok compiled) :
    exitCodeOf compiled.entry = 0 ↔ world.fate.Succeeds compiled.settings := by
  obtain ⟨_, _, _, _, directory, result, _, _, hentry, _, hzero⟩ := compile_eq_ok h
  rw [hentry, exitCodeOf_entryOf, ← hzero]
  by_cases hresult : result.exitCode = 0 <;> simp [hresult]

/-- **Two requests for one path and environment come to the same**, whatever else they ask for. -/
theorem compile_alike [Nesting] {world : World} {first second : Request} {a b : Compiled}
    (hpath : second.path = first.path) (henv : second.env = first.env)
    (ha : compile world first = .ok a) (hb : compile world second = .ok b) :
    b.started = a.started ∧ (exitCodeOf b.entry = 0 ↔ exitCodeOf a.entry = 0) := by
  rw [exitCodeOf_compile ha, exitCodeOf_compile hb]
  obtain ⟨hdocument, hsettings, mode, arguments, directory, _, hplan, hstarted, _⟩ :=
    compile_eq_ok ha
  obtain ⟨hdocument', hsettings', mode', arguments', directory', _, hplan', hstarted', _⟩ :=
    compile_eq_ok hb
  have hsame := settingsFor_of_env henv hsettings hsettings'
  rw [hpath, hdocument, Except.ok.injEq] at hdocument'
  -- the second plan is the first one, since only the format differs
  rw [hsame, plan_outputFormat, ← hdocument', hplan] at hplan'
  obtain ⟨rfl, rfl, rfl⟩ : mode = mode' ∧ arguments = arguments' ∧ directory = directory' := by
    simpa using hplan'
  rw [hstarted, hstarted', hsame, start_outputFormat, succeeds_outputFormat]
  exact ⟨rfl, Iff.rfl⟩

theorem preview_eq_ok [Nesting] {request : Request} {compiled : Compiled} {done : Run}
    (h : preview request compiled = .ok done) :
    done.started = compiled.started ∧ done.exitCode = exitCodeOf compiled.entry := by
  unfold preview at h
  rcases hentry : compiled.entry with _ | ⟨text⟩ | ⟨failure⟩ <;> rw [hentry] at h <;>
    dsimp only at h <;> split at h
  all_goals
    obtain ⟨stdout, _, h⟩ := Attempt.exists_of_bind_eq_ok h
    obtain rfl := Except.ok.inj h
    exact ⟨rfl, rfl⟩

theorem failureLines_eq_ok {document : Document} {failure : Failure} {lines : List Text}
    (h : failureLines document failure = .ok lines) :
    ∃ batch, (CompilerError.ofText failure.error).batch = .ok batch ∧
      lines = if batch.records = [] then [failure.error]
        else batch.records.map fun record => record.line record.file := by
  unfold failureLines at h
  dsimp only at h
  generalize hreport :
    (Reporter.report (σ := WatchedCollection Text) _ _ _).perform _ = answer at h
  obtain ⟨answer, reporter⟩ := answer
  obtain ⟨batch, rfl, h⟩ := Attempt.exists_of_bind_eq_ok h
  obtain rfl := Except.ok.inj h
  obtain ⟨_, _, hbatch, _⟩ := Reporter.report_eq_ok hreport
  have hlines : batch.lines = batch.records.map fun record => record.line record.file := by
    rw [(CompilerError.batch_eq_ok hbatch).2]
    exact (Batch.keyed_ofRecords _).lines_eq
  refine ⟨batch, hbatch, ?_⟩
  rw [hlines]
  cases batch.records <;> rfl

theorem check_eq_ok {request : Request} {compiled : Compiled} {done : Run}
    (h : check request compiled = .ok done) :
    done.started = compiled.started ∧ done.exitCode = exitCodeOf compiled.entry ∧
    ∀ failure, compiled.entry = some (.failed failure) →
      ∃ lines, failureLines compiled.document failure = .ok lines ∧
        done.stdout = lines.flatMap Terminal.display := by
  unfold check at h
  rcases hentry : compiled.entry with _ | ⟨text⟩ | ⟨failure⟩
  · rw [hentry] at h
    obtain rfl := Except.ok.inj h
    exact ⟨rfl, rfl, nofun⟩
  · rw [hentry] at h
    obtain rfl := Except.ok.inj h
    exact ⟨rfl, rfl, nofun⟩
  · rw [hentry] at h
    obtain ⟨lines, hlines, h⟩ := Attempt.exists_of_bind_eq_ok h
    obtain rfl := Except.ok.inj h
    refine ⟨rfl, rfl, fun _ hfailure => ?_⟩
    obtain rfl := Entry.failed.inj (Option.some.inj hfailure)
    exact ⟨lines, hlines, rfl⟩

/-! ## Whole runs -/

/-- A run of the program on a path that is there compiles and makes something of it. -/
theorem run_eq_ok [Nesting] {world : World} {arguments : List Text} {request : Request} {done : Run}
    (hread : readArguments arguments = .ok request)
    (hpath : world.tree.hasPath (Path.ofText request.path) = true)
    (h : run world arguments = .ok done) :
    ∃ compiled made, compile world request = .ok compiled ∧
      (match request.command with
        | .check => check request compiled
        | .preview => preview request compiled) = .ok made ∧
      done = { made with stdout := Terminal.trimLines made.stdout } := by
  unfold run at h
  rw [hread] at h
  obtain ⟨made, hmade, h⟩ := Attempt.exists_of_bind_eq_ok h
  rw [runRequest, if_pos hpath] at hmade
  obtain ⟨compiled, hcompile, hmade⟩ := Attempt.exists_of_bind_eq_ok hmade
  exact ⟨compiled, made, hcompile, hmade, (Except.ok.inj h).symm⟩

end CommandLine
end JsonnetLens
