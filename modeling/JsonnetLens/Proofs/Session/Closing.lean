import JsonnetLens.Proofs.Session.EventLoop
/-!
# Documents that were closed

Closing drops what there is of a document and does not stop a compilation that is waited for; its
result is stored and reported later on.  While the document is not started again, its reports and the
handlers that will report add up to the same number, and so do its preview and the handlers that will
store one.  `closed_unless_waiting` draws the balance.
-/
namespace JsonnetLens.EventLoop

variable {ι σ : Type} {uri : Text} {turn : Turn} {l l' : EventLoop ι σ}

/-- The reports of a document that were made or are still to come. -/
def reportsDue (uri : Text) (l : EventLoop ι σ) : Nat :=
  l.reported uri + l.waiting.countP fun h => h.isFor uri && h.reports

/-- A preview of the document is there or still to come. -/
def present (uri : Text) (l : EventLoop ι σ) : Bool :=
  l.holds uri || l.waiting.any fun h => h.isFor uri && h.stores

/-- There is no preview of the document, and no handler of it waits. -/
def Absent (uri : Text) (l : EventLoop ι σ) : Prop :=
  l.holds uri = false ∧ ∀ h ∈ l.waiting, h.isFor uri = false

/-! ## One turn -/

theorem Passes.reportsDue_eq (h : Passes uri turn l l') : l'.reportsDue uri = l.reportsDue uri := by
  unfold reportsDue
  cases h with
  | apart more hmore waiting holds reported =>
    have hnone : more.countP (fun h => h.isFor uri && h.reports) = 0 := by
      rw [List.countP_eq_zero]
      intro h hh
      simp [hmore h hh]
    rw [waiting, reported, List.countP_append, hnone, Nat.add_zero]
  | closed document hturn huri waiting holds reported => rw [waiting, reported]
  | resumed h waiting holds reported =>
    rw [← waiting.countP_eq, List.countP_cons, reported]
    omega

theorem Passes.present_eq (h : Passes uri turn l l')
    (hopen : ∀ document ∈ turn.closed?, document.uri ≠ uri) : l'.present uri = l.present uri := by
  unfold present
  cases h with
  | apart more hmore waiting holds reported =>
    have hnone : more.any (fun h => h.isFor uri && h.stores) = false := by
      rw [List.any_eq_false]
      intro h hh
      simp [hmore h hh]
    rw [waiting, holds, List.any_append, hnone, Bool.or_false]
  | closed document hturn huri waiting holds reported => exact absurd huri (hopen document hturn)
  | resumed h waiting holds reported => rw [← waiting.any_eq, List.any_cons, holds, Bool.or_assoc]

theorem Passes.absent (h : Passes uri turn l l') (ha : Absent uri l) :
    Absent uri l' ∧ l'.reported uri = l.reported uri := by
  obtain ⟨hholds, hnone⟩ := ha
  cases h with
  | apart more hmore waiting holds reported =>
    refine ⟨⟨holds.trans hholds, fun h hh => ?_⟩, reported⟩
    rw [waiting] at hh
    rcases List.mem_append.1 hh with hh | hh
    · exact hnone h hh
    · exact hmore h hh
  | closed document hturn huri waiting holds reported =>
    exact ⟨⟨holds, fun h hh => hnone h (waiting ▸ hh)⟩, reported⟩
  | resumed h waiting holds reported =>
    have hother := hnone h (waiting.subset List.mem_cons_self)
    refine ⟨⟨?_, fun other ho => hnone other (waiting.subset (List.mem_cons_of_mem h ho))⟩, ?_⟩
    · rw [holds, hother, hholds]
      rfl
    · rw [reported, hother]
      rfl

/-! ## Runs -/

section
variable [Nesting] [Compiler ι] [Sink σ]

/-- What each of these turns keeps, a run of them keeps. -/
theorem run_induction {motive : EventLoop ι σ → Prop} {turns : List Turn} (hm : l.Matched)
    (hstep : ∀ turn ∈ turns, ∀ l : EventLoop ι σ, l.Matched → motive l → motive (l.take turn))
    (h : motive l) : motive (run turns l) := by
  induction turns generalizing l with
  | nil => exact h
  | cons turn turns ih =>
    refine ih (matched_take hm turn) (fun turn hturn => hstep turn (List.mem_cons_of_mem _ hturn)) ?_
    exact hstep turn List.mem_cons_self l hm h

theorem matched_run (turns : List Turn) (hm : l.Matched) : (run turns l).Matched :=
  run_induction hm (fun turn _ _ hm _ => matched_take hm turn) hm

section
variable {turns : List Turn} (hm : l.Matched)
  (h : ∀ turn ∈ turns, ∀ document ∈ turn.started?, document.uri ≠ uri)
include hm h

theorem reportsDue_run : (run turns l).reportsDue uri = l.reportsDue uri := by
  refine run_induction (motive := fun l' => l'.reportsDue uri = l.reportsDue uri) hm
    (fun turn hturn l' hm' hl => ?_) rfl
  exact (passes_take hm' (h turn hturn)).reportsDue_eq.trans hl

theorem present_run (hopen : ∀ turn ∈ turns, ∀ document ∈ turn.closed?, document.uri ≠ uri) :
    (run turns l).present uri = l.present uri := by
  refine run_induction (motive := fun l' => l'.present uri = l.present uri) hm
    (fun turn hturn l' hm' hl => ?_) rfl
  exact ((passes_take hm' (h turn hturn)).present_eq (hopen turn hturn)).trans hl

theorem absent_run (ha : Absent uri l) :
    Absent uri (run turns l) ∧ (run turns l).reported uri = l.reported uri := by
  refine run_induction (motive := fun l' => Absent uri l' ∧ l'.reported uri = l.reported uri) hm
    (fun turn hturn l' hm' hl => ?_) ⟨ha, rfl⟩
  obtain ⟨habsent, hreported⟩ := (passes_take hm' (h turn hturn)).absent hl.1
  exact ⟨habsent, hreported.trans hl.2⟩

end

/-- **What is left of a closed document** that is not started again.  If none of its handlers was
waiting when it was closed, there is no preview of it and no report was made since.  If some were, then
once nothing waits any more those of them that open or save it and fail have reported; and unless it was
closed once more there is a preview just when one of them came to a result. -/
theorem closed_unless_waiting (s : Session ι σ) (before : List Turn) {after : List Turn}
    {document : Document}
    (h : ∀ turn ∈ after, ∀ started ∈ turn.started?, started.uri ≠ document.uri) :
    let closing := (run before { session := s }).take (.closes document)
    let last := run after closing
    ((∀ handler ∈ closing.waiting, handler.document.uri ≠ document.uri) →
      last.session.cache.contains document = false ∧
        last.reports.count document.uri = closing.reports.count document.uri) ∧
    (last.waiting = [] →
      last.reports.count document.uri = closing.reports.count document.uri +
        closing.waiting.countP (fun handler => handler.isFor document.uri && handler.reports) ∧
      ((∀ turn ∈ after, ∀ closed ∈ turn.closed?, closed.uri ≠ document.uri) →
        (last.session.cache.contains document = true ↔
          ∃ handler ∈ closing.waiting, handler.document.uri = document.uri ∧ handler.stores = true))) := by
  intro closing last
  have hmatched : closing.Matched := by
    have hfresh : Matched ({ session := s } : EventLoop ι σ) := nofun
    exact matched_take (matched_run before hfresh) _
  have hholds : closing.holds document.uri = false := by
    simp [closing, holds_take_closes]
  refine ⟨fun hnone => ?_, fun hdone => ⟨?_, fun hopen => ?_⟩⟩
  · have habsent : Absent document.uri closing :=
      ⟨hholds, fun handler hh => decide_eq_false (hnone handler hh)⟩
    obtain ⟨⟨hlast, _⟩, hreported⟩ := absent_run hmatched h habsent
    exact ⟨hlast, hreported⟩
  · have hdue : last.reportsDue document.uri = closing.reportsDue document.uri :=
      reportsDue_run hmatched h
    rw [reportsDue, hdone, List.countP_nil, Nat.add_zero] at hdue
    exact hdue
  · have hpresent : last.present document.uri = closing.present document.uri :=
      present_run hmatched h hopen
    rw [present, hdone, List.any_nil, Bool.or_false, present, hholds, Bool.false_or] at hpresent
    change last.holds document.uri = true ↔ _
    rw [hpresent, List.any_eq_true]
    simp [Handler.isFor]

end

/-- A document that is closed while its failing compilation is waited for. -/
theorem closed_unless_waiting_open :
    let _ : Nesting := .usual
    let document : Document := ⟨"file:///w/a.jsonnet".toList, "/w/a.jsonnet".toList⟩
    let s : Session Script (WatchedCollection Text) :=
      ⟨{ compiler := { answers := [.finished { exitCode := 1 }] } }, ⟨{}, []⟩⟩
    let closing := (run [.opens {} document] { session := s }).take (.closes document)
    let last := run [.resumes 0] closing
    closing.reports = [] ∧ last.reports.count document.uri = 1 ∧
      last.session.cache.contains document = true := by
  intro _ document s
  have hafter : ∀ turn ∈ [Turn.resumes 0], ∀ started ∈ turn.started?, started.uri ≠ document.uri := by
    simp [Turn.started?]
  have hopen : ∀ turn ∈ [Turn.resumes 0], ∀ closed ∈ turn.closed?, closed.uri ≠ document.uri := by
    simp [Turn.closed?]
  have hbalance := (closed_unless_waiting s [.opens {} document] hafter).2
  dsimp only at hbalance ⊢
  generalize hclosing : (run [.opens {} document] { session := s }).take (.closes document) = closing
    at hbalance ⊢
  generalize hlast : run [.resumes 0] closing = last at hbalance ⊢
  have hbefore : closing.reports = [] := by
    rw [← hclosing]
    decide +kernel
  have hcount : closing.waiting.countP (fun handler => handler.isFor document.uri && handler.reports) = 1 := by
    rw [← hclosing]
    decide +kernel
  have hwaits : closing.waiting.any (fun handler => handler.isFor document.uri && handler.stores) = true := by
    rw [← hclosing]
    decide +kernel
  have hempty : last.waiting.isEmpty = true := by
    rw [← hlast, ← hclosing]
    decide +kernel
  obtain ⟨hreports, hcontains⟩ := hbalance (List.isEmpty_iff.1 hempty)
  rw [hcount, hbefore] at hreports
  refine ⟨hbefore, hreports, (hcontains hopen).2 ?_⟩
  simpa [Handler.isFor] using hwaits

/-- A compilation that is waited for when its document is closed comes back, and so does the preview
of another document with the same URI. -/
theorem not_closed_stays_closed :
    let _ : Nesting := .usual
    (¬ ∀ (s : Session Script (WatchedCollection Text)) (before after : List Turn) (document : Document),
      (∀ turn ∈ after, ∀ started ∈ turn.started?, started.uri ≠ document.uri) →
      let closing := (run before { session := s }).take (.closes document)
      let last := run after closing
      last.waiting = [] → last.session.cache.contains document = false ∧
        last.reports.count document.uri = closing.reports.count document.uri) ∧
    ¬ ∀ (s : Session Script (WatchedCollection Text)) (before after : List Turn) (document : Document),
      (∀ turn ∈ after, ∀ started ∈ turn.started?, started ≠ document) →
      let closing := (run before { session := s }).take (.closes document)
      let last := run after closing
      closing.waiting = [] → last.waiting = [] → last.session.cache.contains document = false := by
  intro _
  let a : Document := ⟨"file:///w/a.jsonnet".toList, "/w/a.jsonnet".toList⟩
  let b : Document := ⟨a.uri, "/w/b.jsonnet".toList⟩
  let s : Session Script (WatchedCollection Text) :=
    ⟨{ compiler := { answers := [.finished { exitCode := 1 }] } }, ⟨{}, []⟩⟩
  refine ⟨fun h => ?_, fun h => ?_⟩
  · have hclaim := h s [.opens {} a] [.resumes 0] a (by simp [Turn.started?])
    dsimp only at hclaim
    generalize hlast : run [.resumes 0] ((run [.opens {} a] { session := s }).take (.closes a)) = last
      at hclaim
    have hends : last.waiting.isEmpty = true ∧ last.session.cache.contains a = true := by
      rw [← hlast]
      decide +kernel
    rw [(hclaim (List.isEmpty_iff.1 hends.1)).1] at hends
    cases hends.2
  · have hother : ∀ turn ∈ [Turn.opens {} b, .resumes 0], ∀ started ∈ turn.started?, started ≠ a := by
      have hne : b ≠ a := by decide
      simp [Turn.started?, hne]
    have hclaim := h s [.opens {} a, .resumes 0] [.opens {} b, .resumes 0] a hother
    dsimp only at hclaim
    generalize hclosing : (run [.opens {} a, .resumes 0] { session := s }).take (.closes a) = closing
      at hclaim
    generalize hlast : run [.opens {} b, .resumes 0] closing = last at hclaim
    have hcloses : closing.waiting.isEmpty = true := by
      rw [← hclosing]
      decide +kernel
    have hends : last.waiting.isEmpty = true ∧ last.session.cache.contains a = true := by
      rw [← hlast, ← hclosing]
      decide +kernel
    rw [hclaim (List.isEmpty_iff.1 hcloses) (List.isEmpty_iff.1 hends.1)] at hends
    cases hends.2

end JsonnetLens.EventLoop
