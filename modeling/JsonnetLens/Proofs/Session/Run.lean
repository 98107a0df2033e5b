import JsonnetLens.Session
import JsonnetLens.Proofs.Preview.Generate
/-!
# Runs of a session

The events of a session one after another, each with its answer, as long as none fails.  Opening is
generating a preview and then judging the entry that is there; `open_eq_ok_iff`, `save_eq_ok_iff`,
`close_eq_ok_iff` and `render_state` say what each event does to the cache and to the reporter.
-/
namespace JsonnetLens.Session

variable {ι σ : Type}

/-- What can happen to a session. -/
inductive Event where
  | opened (tree : FileTree) (document : Document)
  | saved (tree : FileTree) (document : Document)
  | closed (document : Document)
  | rendered (tree : FileTree) (document : Document)
  | configured (settings : Settings)

inductive Answer where
  | verdict (verdict : Verdict)
  | page (rendering : Rendering)
  | done
  deriving DecidableEq, Repr

section
variable [Nesting] [Compiler ι] [Sink σ]

def Event.handle : Event → Attempt (Session ι σ) Answer
  | .opened tree document => return .verdict (← Session.open tree document)
  | .saved tree document => return .verdict (← save tree document)
  | .closed document => do
    close document
    return .done
  | .rendered tree document => return .page (← render tree document)
  | .configured settings => do
    modify (updateSettings settings)
    return .done

/-- The events so far with their answers, the latest first, and the session after them. -/
inductive Run (first : Session ι σ) : List (Event × Answer) → Session ι σ → Prop
  | start : Run first [] first
  | next {history : List (Event × Answer)} {s s' : Session ι σ} (event : Event) (answer : Answer) :
    Run first history s → event.handle.perform s = (.ok answer, s') →
      Run first ((event, answer) :: history) s'

end

/-! ## What each event does -/

theorem onCache_eq_ok_iff {α : Type} {x : Attempt (PreviewCache ι) α} {s s' : Session ι σ} {a : α} :
    (onCache x).perform s = (.ok a, s') ↔
      x.perform s.cache = (.ok a, s'.cache) ∧ s'.reporter = s.reporter := by
  obtain ⟨cache', reporter'⟩ := s'
  rw [onCache, Attempt.perform_onPart, Prod.mk.injEq, Session.mk.injEq]
  constructor
  · rintro ⟨ha, hc, hr⟩
    exact ⟨Prod.ext ha hc, hr.symm⟩
  · rintro ⟨hx, hr⟩
    exact ⟨by rw [hx], by rw [hx], hr.symm⟩

theorem onReporter_eq_ok_iff {α : Type} {x : Attempt (Reporter σ) α} {s s' : Session ι σ} {a : α} :
    (onReporter x).perform s = (.ok a, s') ↔
      x.perform s.reporter = (.ok a, s'.reporter) ∧ s'.cache = s.cache := by
  obtain ⟨cache', reporter'⟩ := s'
  rw [onReporter, Attempt.perform_onPart, Prod.mk.injEq, Session.mk.injEq]
  constructor
  · rintro ⟨ha, hc, hr⟩
    exact ⟨Prod.ext ha hr, hc.symm⟩
  · rintro ⟨hx, hc⟩
    exact ⟨by rw [hx], hc.symm, by rw [hx]⟩

section
variable [Sink σ]

theorem judge_of_failed {document : Document} {s s' : Session ι σ} {verdict : Verdict}
    {failure : Failure} (hf : s.cache.get? document = some (.failed failure)) :
    (judge document).perform s = (.ok verdict, s') ↔
      s'.cache = s.cache ∧ ∃ batch, verdict = .rejected batch (rejection document batch) ∧
        (Reporter.report document.uri failure.error failure.directory).perform s.reporter =
          (.ok batch, s'.reporter) := by
  unfold judge
  rw [Attempt.perform_get_bind]
  simp only [hf, Attempt.perform_bind_eq_ok, onReporter_eq_ok_iff, Attempt.perform_pure, Prod.mk.injEq]
  constructor
  · rintro ⟨batch, _, ⟨hr, hc⟩, ⟨⟩, rfl⟩
    exact ⟨hc, batch, rfl, hr⟩
  · rintro ⟨hc, batch, rfl, hr⟩
    exact ⟨batch, s', ⟨hr, hc⟩, rfl, rfl⟩

theorem judge_of_not_failed {document : Document} {s s' : Session ι σ} {verdict : Verdict}
    (hf : ∀ failure, s.cache.get? document ≠ some (.failed failure)) :
    (judge document).perform s = (.ok verdict, s') ↔
      s'.cache = s.cache ∧ verdict = .accepted ∧
        (Reporter.clear document.uri).perform s.reporter = (.ok (), s'.reporter) := by
  have haccept : (do
        onReporter (Reporter.clear document.uri)
        return Verdict.accepted : Attempt (Session ι σ) Verdict).perform s = (.ok verdict, s') ↔
      s'.cache = s.cache ∧ verdict = .accepted ∧
        (Reporter.clear document.uri).perform s.reporter = (.ok (), s'.reporter) := by
    simp only [Attempt.perform_bind_eq_ok, onReporter_eq_ok_iff, Attempt.perform_pure, Prod.mk.injEq]
    constructor
    · rintro ⟨_, _, ⟨hr, hc⟩, ⟨⟩, rfl⟩
      exact ⟨hc, rfl, hr⟩
    · rintro ⟨hc, rfl, hr⟩
      exact ⟨(), s', ⟨hr, hc⟩, rfl, rfl⟩
  unfold judge
  rw [Attempt.perform_get_bind]
  rcases hg : s.cache.get? document with _ | ⟨text⟩ | ⟨failure⟩
  · simpa only [hg] using haccept
  · simpa only [hg] using haccept
  · exact absurd hg (hf failure)

theorem close_eq_ok_iff {document : Document} {s s' : Session ι σ} :
    (close document).perform s = (.ok (), s') ↔
      s'.cache = s.cache.delete document ∧
        (Reporter.clear document.uri).perform s.reporter = (.ok (), s'.reporter) := by
  unfold close forget
  rw [Attempt.perform_bind, Attempt.perform_modify, onReporter_eq_ok_iff, and_comm]

end

section
variable [Compiler ι] [Sink σ]

theorem open_eq_ok_iff {tree : FileTree} {document : Document} {s s' : Session ι σ}
    {verdict : Verdict} :
    (Session.open tree document).perform s = (.ok verdict, s') ↔
      ∃ content cache, (PreviewCache.generate tree document).perform s.cache = (.ok content, cache) ∧
        (judge document).perform { s with cache } = (.ok verdict, s') := by
  unfold Session.open finishOpen start PreviewCache.generate
  simp only [Attempt.perform_bind_eq_ok, onCache_eq_ok_iff]
  constructor
  · rintro ⟨ticket, t, ⟨hs, hr⟩, content, u, ⟨hc, hr'⟩, hj⟩
    obtain ⟨cache, reporter⟩ := u
    subst hr'
    exact ⟨content, cache, ⟨ticket, t.cache, hs, hc⟩, hr ▸ hj⟩
  · rintro ⟨content, cache, ⟨ticket, t, hs, hc⟩, hj⟩
    exact ⟨ticket, { s with cache := t }, ⟨hs, rfl⟩, content, { s with cache }, ⟨hc, rfl⟩, hj⟩

theorem open_of_failed {tree : FileTree} {document : Document} {s : Session ι σ} {result : Result}
    {directory : Text} {compiler : ι} {batch : Batch} {reporter : Reporter σ}
    (hn : s.cache.get? document = none)
    (hc : PreviewCache.Compiles tree document s.cache result directory compiler)
    (hcode : result.exitCode ≠ 0)
    (hr : (Reporter.report document.uri (PreviewCache.banner result.command ++ '\n' :: result.stderr)
      (some directory)).perform s.reporter = (.ok batch, reporter)) :
    ∃ cache, (Session.open tree document).perform s =
      (.ok (.rejected batch (rejection document batch)), ⟨cache, reporter⟩) := by
  obtain ⟨content, cache, hg, hget⟩ := PreviewCache.generate_of_failed hn hc hcode
  have hj : (judge document).perform { s with cache } =
      (.ok (.rejected batch (rejection document batch)), ⟨cache, reporter⟩) := by
    rw [judge_of_failed hget]
    exact ⟨rfl, batch, rfl, hr⟩
  exact ⟨cache, open_eq_ok_iff.2 ⟨content, cache, hg, hj⟩⟩

theorem save_eq_ok_iff {tree : FileTree} {document : Document} {s s' : Session ι σ}
    {verdict : Verdict} :
    (save tree document).perform s = (.ok verdict, s') ↔
      (Session.open tree document).perform { s with cache := s.cache.delete document } =
        (.ok verdict, s') := by
  unfold save forget
  rw [Attempt.perform_bind, Attempt.perform_modify]

theorem save_of_failed {tree : FileTree} {document : Document} {s : Session ι σ} {result : Result}
    {directory : Text} {compiler : ι} {batch : Batch} {reporter : Reporter σ}
    (hc : PreviewCache.Compiles tree document s.cache result directory compiler)
    (hcode : result.exitCode ≠ 0)
    (hr : (Reporter.report document.uri (PreviewCache.banner result.command ++ '\n' :: result.stderr)
      (some directory)).perform s.reporter = (.ok batch, reporter)) :
    ∃ cache, (save tree document).perform s =
      (.ok (.rejected batch (rejection document batch)), ⟨cache, reporter⟩) := by
  let dropped : Session ι σ := { s with cache := s.cache.delete document }
  have hn : dropped.cache.get? document = none := Table.get?_erase_self _ _
  obtain ⟨cache, hopen⟩ := open_of_failed (s := dropped) hn hc hcode hr
  exact ⟨cache, save_eq_ok_iff.2 hopen⟩

end

section
variable [Nesting] [Compiler ι]

theorem render_state {tree : FileTree} {document : Document} {s s' : Session ι σ}
    {rendering : Rendering} (h : (render tree document).perform s = (.ok rendering, s')) :
    s'.reporter = s.reporter ∧
      ∃ content, (PreviewCache.generate tree document).perform s.cache = (.ok content, s'.cache) := by
  unfold render finishRender start at h
  simp only [Attempt.perform_bind_eq_ok, onCache_eq_ok_iff, Attempt.perform_get_bind,
    Attempt.perform_lift, Attempt.perform_pure, Prod.mk.injEq] at h
  obtain ⟨ticket, t, ⟨hs, hr⟩, content, u, ⟨hc, hr'⟩, page, _, ⟨_, rfl⟩, _, rfl⟩ := h
  refine ⟨hr'.trans hr, content, ?_⟩
  unfold PreviewCache.generate
  exact Attempt.perform_bind_eq_ok.2 ⟨ticket, t.cache, hs, hc⟩

end
end JsonnetLens.Session
