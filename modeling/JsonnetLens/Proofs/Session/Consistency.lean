import JsonnetLens.Proofs.Diagnostic.Report
import JsonnetLens.Proofs.Session.Run
/-!
# Diagnostics and previews agree

Three parts of a session change in different ways: the previews by document, the diagnostics by
path, and the paths published for a document.  The invariant `Consistent` ties them together over
every run without a fault: what is shown is what the last report published, and the document of
that report still has the failed preview that was reported, or nothing is shown.
-/
namespace JsonnetLens.Session

variable {ι : Type}

/-- A session before anything has happened, with an empty sink. -/
def fresh (compiler : ι) (settings : Settings) : Session ι (WatchedCollection Text) :=
  { cache := { compiler, settings }, reporter := { sink := {} } }

/-- What reporting a failure publishes into an empty sink. -/
def publication (uri : Text) (failure : Failure) : Table Text (List Record) :=
  ((Reporter.report uri failure.error failure.directory).perform
    ({ sink := {} } : Reporter (WatchedCollection Text))).2.shown

/-- The document that an event reported, by its URI. -/
def reportedUri? : Event × Answer → Option Text
  | (.opened _ document, .verdict (.rejected ..)) => some document.uri
  | (.saved _ document, .verdict (.rejected ..)) => some document.uri
  | _ => none

/-- The document of the latest report. -/
def lastReported (history : List (Event × Answer)) : Option Text := history.findSome? reportedUri?

/-- **The invariant**: nothing is shown, or the reporter is as the last report left it and the failed
preview that was reported is still there. -/
def Consistent (history : List (Event × Answer)) (s : Session ι (WatchedCollection Text)) : Prop :=
  s.reporter.shown = [] ∨
    ∃ uri failure batch first, lastReported history = some uri ∧
      s.cache.entries.get? uri = some (.failed failure) ∧
      (Reporter.report uri failure.error failure.directory).perform first = (.ok batch, s.reporter)

variable {history : List (Event × Answer)} {s s' : Session ι (WatchedCollection Text)}

theorem Consistent.of_same_reporter {history' : List (Event × Answer)} (hs : Consistent history s)
    (hl : lastReported history' = lastReported history) (hr : s'.reporter = s.reporter)
    (he : ∀ uri entry, s.cache.entries.get? uri = some entry → s'.cache.entries.get? uri = some entry) :
    Consistent history' s' := by
  rcases hs with hs | ⟨uri, failure, batch, first, hu, hf, hreport⟩
  · exact .inl (by rw [hr, hs])
  · exact .inr ⟨uri, failure, batch, first, hl.trans hu, he _ _ hf, by rw [hr, hreport]⟩

theorem Consistent.of_clear {history' : List (Event × Answer)} (hs : Consistent history s)
    (hl : lastReported history' = lastReported history) {cleared : Text}
    (hc : (Reporter.clear cleared).perform s.reporter = (.ok (), s'.reporter))
    (he : ∀ uri entry, uri ≠ cleared → s.cache.entries.get? uri = some entry →
      s'.cache.entries.get? uri = some entry) :
    Consistent history' s' := by
  rcases hs with hs | ⟨uri, failure, batch, first, hu, hf, hreport⟩
  · exact .inl (Reporter.shown_clear_of_empty hc hs)
  · rcases Reporter.clear_after_report hreport hc with hempty | ⟨hsame, hne⟩
    · exact .inl hempty
    · have hother : uri ≠ cleared := fun heq => hne (by rw [heq])
      exact .inr ⟨uri, failure, batch, first, hl.trans hu, he _ _ hother hf, by rw [hsame, hreport]⟩

/-- The invariant in terms of what a report publishes into an empty sink. -/
theorem Consistent.shown_eq (hs : Consistent history s) :
    s.reporter.shown = [] ∨ ∃ (document : Document) (failure : Failure),
      s.cache.get? document = some (.failed failure) ∧
      s.reporter.shown = publication document.uri failure := by
  refine hs.imp_right ?_
  rintro ⟨uri, failure, batch, first, _, hf, hr⟩
  exact ⟨⟨uri, []⟩, failure, hf, (Reporter.shown_report hr).symm⟩

variable [Compiler ι]

/-! ## Opening and saving

Both judge the entry that is there at the end; of the other entries none is lost. -/

/-- Opening leads to a report of the failed preview or to a clear. -/
theorem open_cases {tree : FileTree} {document : Document} {verdict : Verdict}
    (h : (Session.open tree document).perform s = (.ok verdict, s')) :
    (∀ uri entry, s.cache.entries.get? uri = some entry → s'.cache.entries.get? uri = some entry) ∧
      ((∃ failure batch, s'.cache.get? document = some (.failed failure) ∧
          verdict = .rejected batch (rejection document batch) ∧
          (Reporter.report document.uri failure.error failure.directory).perform s.reporter =
            (.ok batch, s'.reporter)) ∨
        (verdict = .accepted ∧
          (Reporter.clear document.uri).perform s.reporter = (.ok (), s'.reporter))) := by
  obtain ⟨content, cache, hg, hj⟩ := open_eq_ok_iff.1 h
  by_cases hf : ∃ failure, cache.get? document = some (.failed failure)
  · obtain ⟨failure, hf⟩ := hf
    obtain ⟨hc, batch, hv, hr⟩ := (judge_of_failed hf).1 hj
    refine ⟨fun uri entry he => ?_, .inl ⟨failure, batch, ?_, hv, hr⟩⟩
    · rw [hc]
      exact PreviewCache.get?_generate hg he
    · rw [hc]
      exact hf
  · obtain ⟨hc, hv, hr⟩ := (judge_of_not_failed fun failure he => hf ⟨failure, he⟩).1 hj
    refine ⟨fun uri entry he => ?_, .inr ⟨hv, hr⟩⟩
    rw [hc]
    exact PreviewCache.get?_generate hg he

/-- Of a document that is opened or saved, only its own entry may change. -/
theorem judged_cases {tree : FileTree} {document : Document} {verdict : Verdict}
    (h : (Session.open tree document).perform s = (.ok verdict, s') ∨
      (save tree document).perform s = (.ok verdict, s')) :
    (∀ uri entry, uri ≠ document.uri → s.cache.entries.get? uri = some entry →
        s'.cache.entries.get? uri = some entry) ∧
      ((∃ failure batch, s'.cache.get? document = some (.failed failure) ∧
          verdict = .rejected batch (rejection document batch) ∧
          (Reporter.report document.uri failure.error failure.directory).perform s.reporter =
            (.ok batch, s'.reporter)) ∨
        (verdict = .accepted ∧
          (Reporter.clear document.uri).perform s.reporter = (.ok (), s'.reporter))) := by
  rcases h with h | h
  · obtain ⟨hkeep, hcases⟩ := open_cases h
    exact ⟨fun uri entry _ he => hkeep uri entry he, hcases⟩
  · obtain ⟨hkeep, hcases⟩ := open_cases (save_eq_ok_iff.1 h)
    refine ⟨fun uri entry hne he => hkeep uri entry ?_, hcases⟩
    rw [PreviewCache.delete, Table.get?_erase_of_ne hne]
    exact he

/-! ## One step -/

/-- Opening and saving keep the invariant, since a rejection is a report. -/
theorem Consistent.of_judged {event : Event} {tree : FileTree} {document : Document}
    {verdict : Verdict} (hs : Consistent history s)
    (hevent : event = .opened tree document ∨ event = .saved tree document)
    (h : (Session.open tree document).perform s = (.ok verdict, s') ∨
      (save tree document).perform s = (.ok verdict, s')) :
    Consistent ((event, .verdict verdict) :: history) s' := by
  obtain ⟨hkeep, ⟨failure, batch, hf, rfl, hr⟩ | ⟨rfl, hc⟩⟩ := judged_cases h
  · refine .inr ⟨document.uri, failure, batch, s.reporter, ?_, hf, hr⟩
    rcases hevent with rfl | rfl <;> rfl
  · refine hs.of_clear ?_ hc hkeep
    rcases hevent with rfl | rfl <;> rfl

/-- **Every event keeps the invariant.** -/
theorem Consistent.next [Nesting] {event : Event} {answer : Answer} (hs : Consistent history s)
    (h : event.handle.perform s = (.ok answer, s')) : Consistent ((event, answer) :: history) s' := by
  cases event with
  | opened tree document =>
    obtain ⟨verdict, t, hv, ha⟩ := Attempt.perform_bind_eq_ok.1 h
    cases ha
    exact hs.of_judged (.inl rfl) (.inl hv)
  | saved tree document =>
    obtain ⟨verdict, t, hv, ha⟩ := Attempt.perform_bind_eq_ok.1 h
    cases ha
    exact hs.of_judged (.inr rfl) (.inr hv)
  | closed document =>
    obtain ⟨_, t, hv, ha⟩ := Attempt.perform_bind_eq_ok.1 h
    cases ha
    obtain ⟨hcache, hc⟩ := close_eq_ok_iff.1 hv
    refine hs.of_clear rfl hc fun uri entry hne he => ?_
    rw [hcache, PreviewCache.delete, Table.get?_erase_of_ne hne]
    exact he
  | rendered tree document =>
    obtain ⟨rendering, t, hv, ha⟩ := Attempt.perform_bind_eq_ok.1 h
    cases ha
    obtain ⟨hr, content, hg⟩ := render_state hv
    exact hs.of_same_reporter rfl hr fun uri entry he => PreviewCache.get?_generate hg he
  | configured settings =>
    cases h
    exact hs.of_same_reporter rfl rfl fun uri entry he => he

/-! ## Runs -/

theorem Run.consistent [Nesting] {compiler : ι} {settings : Settings}
    (run : Run (fresh compiler settings) history s) : Consistent history s := by
  induction run with
  | start => exact .inl rfl
  | next event answer _ h ih => exact ih.next h

/-- **Diagnostics and previews agree after every run.**  Nothing is shown, or just what a report of
one failed preview publishes.  A rejected document is that document; an accepted one shows nothing,
and nothing at all is shown if the last report was made for it. -/
theorem Run.shown_is_publication [Nesting] {compiler : ι} {settings : Settings}
    (run : Run (fresh compiler settings) history s) :
    (s.reporter.shown = [] ∨ ∃ (document : Document) (failure : Failure),
      s.cache.get? document = some (.failed failure) ∧
      s.reporter.shown = publication document.uri failure) ∧
    ∀ tree document verdict s',
      ((Session.open tree document).perform s = (.ok verdict, s') ∨
        (save tree document).perform s = (.ok verdict, s')) →
      (verdict ≠ .accepted → ∃ failure, s'.cache.get? document = some (.failed failure) ∧
        s'.reporter.shown = publication document.uri failure) ∧
      (verdict = .accepted →
        (∃ path, Reporter.documentPath document.uri = .ok path ∧
          s'.reporter.shown.contains path = false) ∧
        (lastReported history = some document.uri → s'.reporter.shown = [])) := by
  refine ⟨run.consistent.shown_eq, fun tree document verdict s' h => ?_⟩
  obtain ⟨_, ⟨failure, batch, hf, rfl, hr⟩ | ⟨rfl, hc⟩⟩ := judged_cases h
  · refine ⟨fun _ => ⟨failure, hf, (Reporter.shown_report hr).symm⟩, fun h => ?_⟩
    cases h
  · refine ⟨fun h => absurd rfl h, fun _ => ⟨Reporter.contains_clear hc, fun hl => ?_⟩⟩
    rcases run.consistent with hs | ⟨uri, failure, batch, first, hu, _, hreport⟩
    · exact Reporter.shown_clear_of_empty hc hs
    · obtain rfl : uri = document.uri := Option.some.inj (hu.symm.trans hl)
      exact (Reporter.clear_after_report hreport hc).resolve_right fun hne => hne.2 rfl

/-- An import fails: its path is shown, and nothing is once the document that imports it is saved. -/
theorem shown_is_publication_import :
    let _ : Nesting := .usual
    let document : Document := ⟨"file:///w/a.jsonnet".toList, "/w/a.jsonnet".toList⟩
    let script : Script :=
      { answers := [.finished { exitCode := 1, stderr := "STATIC ERROR: lib:1:2: boom".toList },
          .finished {}] }
    let record : Record := ⟨"lib".toList, ⟨⟨0, 1⟩, ⟨0, 2⟩⟩, "boom".toList⟩
    let verdict := Verdict.rejected [("lib".toList, [record])] (rejection document [([], [record])])
    ∃ s s', Run (fresh script {}) [(.opened {} document, .verdict verdict)] s ∧
      s.reporter.shown = [("/w/lib".toList, [record])] ∧
      (save {} document).perform s = (.ok .accepted, s') ∧
      (s.reporter.shown = [] ∨ ∃ (document : Document) (failure : Failure),
        s.cache.get? document = some (.failed failure) ∧
        s.reporter.shown = publication document.uri failure) ∧
      s'.reporter.shown = [] := by
  intro _ document script record verdict
  have hopen : (Event.opened {} document).handle.perform (fresh script {}) = (.ok (.verdict verdict), _) :=
    Attempt.perform_eq_ok (by decide +kernel)
  have hsave := Attempt.perform_eq_ok (x := save {} document)
    (s := ((Event.opened {} document).handle.perform (fresh script {})).2)
    (a := .accepted) (by decide +kernel)
  have run := Run.next _ _ .start hopen
  exact ⟨_, _, run, by decide +kernel, hsave, run.shown_is_publication.1,
    ((run.shown_is_publication.2 {} document .accepted _ (.inr hsave)).2 rfl).2 rfl⟩

end JsonnetLens.Session
