import JsonnetLens.Proofs.Preview.Turns
import JsonnetLens.Proofs.Session.Run
/-!
# Handlers that take turns

Several handlers of one session can be under way on one thread: each runs until it calls the
compiler, and goes on from the result in a later turn.  The compiler's answer is drawn with the call
and not seen before that turn.  `passes_take` says all that one turn can do to a document which it
does not start.
-/
namespace JsonnetLens

/-- What a handler does with the preview that it has waited for. -/
inductive Purpose where
  | judging
  | rendering

/-- A handler that waits for the compiler. -/
structure Handler where
  purpose : Purpose
  document : Document
  compilation : Pending

/-- A session and the handlers that wait.  The documents that were reported are written down by their
URIs, which no handler reads. -/
structure EventLoop (ι σ : Type) where
  session : Session ι σ
  waiting : List Handler := []
  reports : List Text := []

/-- What a handler does without waiting. -/
inductive Turn where
  | opens (tree : FileTree) (document : Document)
  | saves (tree : FileTree) (document : Document)
  | renders (tree : FileTree) (document : Document)
  | closes (document : Document)
  /-- The waiting handler at this position goes on. -/
  | resumes (position : Nat)

/-- The document for which a turn begins a handler. -/
def Turn.started? : Turn → Option Document
  | opens _ document => some document
  | saves _ document => some document
  | renders _ document => some document
  | closes _ => none
  | resumes _ => none

def Turn.closed? : Turn → Option Document
  | closes document => some document
  | _ => none

namespace Session

variable {ι σ : Type}

/-- The failure that the second half of opening a document reports. -/
def failure? (document : Document) (ticket : Ticket) (cache : PreviewCache ι) : Option Failure :=
  match (PreviewCache.redeem ticket).perform cache with
  | (.error _, _) => none
  | (.ok _, cache) =>
    match cache.get? document with
    | some (.failed failure) => some failure
    | _ => none

/-! ## The second halves -/

section
variable [Sink σ]

theorem state_judge (document : Document) (s : Session ι σ) :
    ((judge document).perform s).2 =
      match s.cache.get? document with
      | some (.failed failure) =>
        { s with
          reporter :=
            ((Reporter.report document.uri failure.error failure.directory).perform s.reporter).2 }
      | _ => { s with reporter := ((Reporter.clear document.uri).perform s.reporter).2 } := by
  unfold judge
  rw [Attempt.perform_get_bind]
  rcases s.cache.get? document with _ | ⟨text⟩ | ⟨failure⟩ <;>
    simp only [Attempt.state_bind_pure, onReporter, Attempt.perform_onPart]

theorem state_finishOpen (document : Document) (ticket : Ticket) (s : Session ι σ) :
    ((finishOpen document ticket).perform s).2 =
      match (PreviewCache.redeem ticket).perform s.cache with
      | (.error _, cache) => { s with cache }
      | (.ok _, cache) => ((judge document).perform { s with cache }).2 := by
  rw [finishOpen, Attempt.perform_bind, onCache, Attempt.perform_onPart]
  rcases (PreviewCache.redeem ticket).perform s.cache with ⟨_ | _, _⟩ <;> rfl

/-- The reporter is asked to report a failure just when `failure?` finds one. -/
theorem reporter_finishOpen (document : Document) (ticket : Ticket) (s : Session ι σ) :
    (∀ failure, failure? document ticket s.cache = some failure →
      ((finishOpen document ticket).perform s).2.reporter =
        ((Reporter.report document.uri failure.error failure.directory).perform s.reporter).2) ∧
    (failure? document ticket s.cache = none →
      ((finishOpen document ticket).perform s).2.reporter = s.reporter ∨
      ((finishOpen document ticket).perform s).2.reporter =
        ((Reporter.clear document.uri).perform s.reporter).2) := by
  rw [state_finishOpen, failure?]
  rcases (PreviewCache.redeem ticket).perform s.cache with ⟨fault | content, cache⟩
  · exact ⟨nofun, fun _ => .inl rfl⟩
  · simp only [state_judge]
    rcases hg : cache.get? document with _ | ⟨text⟩ | ⟨failure⟩
    · exact ⟨nofun, fun _ => .inr rfl⟩
    · exact ⟨nofun, fun _ => .inr rfl⟩
    · exact ⟨fun _ h => by obtain rfl := Option.some.inj h; rfl, nofun⟩

theorem cache_finishOpen (document : Document) (ticket : Ticket) (s : Session ι σ) :
    ((finishOpen document ticket).perform s).2.cache =
      ((PreviewCache.redeem ticket).perform s.cache).2 := by
  rw [state_finishOpen]
  rcases (PreviewCache.redeem ticket).perform s.cache with ⟨_ | _, cache⟩
  · rfl
  · simp only [state_judge]
    split <;> rfl

end

theorem state_finishRender [Nesting] (document : Document) (ticket : Ticket) (s : Session ι σ) :
    ((finishRender document ticket).perform s).2 =
      { s with cache := ((PreviewCache.redeem ticket).perform s.cache).2 } := by
  rw [finishRender, Attempt.perform_bind, onCache, Attempt.perform_onPart]
  rcases (PreviewCache.redeem ticket).perform s.cache with ⟨_ | _, cache⟩
  · rfl
  · simp only [Attempt.perform_get_bind, Attempt.state_bind_pure, Attempt.perform_lift]

end Session

namespace EventLoop

variable {ι σ : Type}

section
variable [Nesting] [Sink σ]

/-- A handler goes on with its preview. -/
def conclude (purpose : Purpose) (document : Document) (ticket : Ticket) (l : EventLoop ι σ) :
    EventLoop ι σ :=
  match purpose with
  | .judging =>
    { l with
      session := ((Session.finishOpen document ticket).perform l.session).2
      reports := l.reports ++
        ((Session.failure? document ticket l.session.cache).map fun _ => document.uri).toList }
  | .rendering => { l with session := ((Session.finishRender document ticket).perform l.session).2 }

variable [Compiler ι]

/-- A handler runs until it waits, or to its end if there is a preview already. -/
def start (purpose : Purpose) (tree : FileTree) (document : Document) (l : EventLoop ι σ) :
    EventLoop ι σ :=
  match (Session.start tree document).perform l.session with
  | (.error _, session) => { l with session }
  | (.ok (.ready content), session) => conclude purpose document (.ready content) { l with session }
  | (.ok (.pending compilation), session) =>
    { l with session, waiting := l.waiting ++ [⟨purpose, document, compilation⟩] }

def forget (document : Document) (l : EventLoop ι σ) : EventLoop ι σ :=
  { l with session := ((Session.forget document).perform l.session).2 }

/-- A handler that fails leaves behind what it did before. -/
def take (l : EventLoop ι σ) : Turn → EventLoop ι σ
  | .opens tree document => l.start .judging tree document
  | .saves tree document => (l.forget document).start .judging tree document
  | .renders tree document => l.start .rendering tree document
  | .closes document => { l with session := ((Session.close document).perform l.session).2 }
  | .resumes position =>
    match l.waiting[position]? with
    | none => l
    | some handler =>
      conclude handler.purpose handler.document (.pending handler.compilation)
        { l with waiting := l.waiting.eraseIdx position }

def run (turns : List Turn) (l : EventLoop ι σ) : EventLoop ι σ := turns.foldl take l

theorem session_start_resumes (purpose : Purpose) (tree : FileTree) (document : Document)
    (l : EventLoop ι σ) :
    ((l.start purpose tree document).take (.resumes l.waiting.length)).session =
      match purpose with
      | .judging => ((Session.open tree document).perform l.session).2
      | .rendering => ((Session.render tree document).perform l.session).2 := by
  simp only [take, start, Session.open, Session.render, Attempt.perform_bind]
  rcases (Session.start tree document).perform l.session with ⟨fault | content | compilation, session⟩
  · cases purpose <;> simp
  · cases purpose <;> simp [conclude]
  · cases purpose <;> simp [conclude]

/-- **A handler that nothing interrupts** leaves the session as the whole handler does. -/
theorem session_uninterrupted (tree : FileTree) (document : Document) (l : EventLoop ι σ) :
    ((l.take (.opens tree document)).take (.resumes l.waiting.length)).session =
      ((Session.open tree document).perform l.session).2 ∧
    ((l.take (.saves tree document)).take (.resumes l.waiting.length)).session =
      ((Session.save tree document).perform l.session).2 ∧
    ((l.take (.renders tree document)).take (.resumes l.waiting.length)).session =
      ((Session.render tree document).perform l.session).2 := by
  refine ⟨session_start_resumes .judging tree document l, ?_,
    session_start_resumes .rendering tree document l⟩
  refine (session_start_resumes .judging tree document (l.forget document)).trans ?_
  rw [Session.save, Attempt.perform_bind, forget, Session.forget, Attempt.perform_modify]

end

/-! ## What a turn does -/

def holds (uri : Text) (l : EventLoop ι σ) : Bool := l.session.cache.entries.contains uri

def reported (uri : Text) (l : EventLoop ι σ) : Nat := l.reports.count uri

/-- A compilation that is waited for is one of the handler's document. -/
def Matched (l : EventLoop ι σ) : Prop := ∀ h ∈ l.waiting, h.compilation.uri = h.document.uri

end EventLoop

namespace Handler

def isFor (uri : Text) (h : Handler) : Bool := h.document.uri = uri

def stores (h : Handler) : Bool := h.compilation.result.isOk

/-- Whether the handler will report a failure. -/
def reports (h : Handler) : Bool :=
  match h.purpose, h.compilation.result with
  | .judging, .ok result => result.exitCode ≠ 0
  | _, _ => false

end Handler

namespace Session

variable {ι σ : Type}

theorem failure?_pending {document : Document} {compilation : Pending}
    (h : compilation.uri = document.uri) (cache : PreviewCache ι) :
    (failure? document (.pending compilation) cache).isSome =
      Handler.reports ⟨.judging, document, compilation⟩ := by
  have hget : ∀ entry, (PreviewCache.store compilation.uri entry cache).get? document = some entry := by
    intro entry
    rw [h, PreviewCache.get?_store]
  unfold failure? Handler.reports PreviewCache.redeem PreviewCache.settle
  simp only [Attempt.perform_bind, Attempt.perform_lift]
  rcases compilation.result with fault | result
  · rfl
  · simp only [Attempt.perform_modify, Attempt.perform_pure, hget, PreviewCache.entryOf]
    by_cases hcode : result.exitCode = 0
    · simp [hcode]
    · simp [hcode]

end Session

namespace EventLoop

variable {ι σ : Type}

section
variable [Nesting] [Sink σ]

theorem waiting_conclude (purpose : Purpose) (document : Document) (ticket : Ticket)
    (l : EventLoop ι σ) : (conclude purpose document ticket l).waiting = l.waiting := by
  cases purpose <;> rfl

theorem cache_conclude (purpose : Purpose) (document : Document) (ticket : Ticket)
    (l : EventLoop ι σ) : (conclude purpose document ticket l).session.cache =
      ((PreviewCache.redeem ticket).perform l.session.cache).2 := by
  cases purpose with
  | judging => exact Session.cache_finishOpen document ticket l.session
  | rendering => rw [conclude, Session.state_finishRender]

theorem reported_conclude_of_ne {uri : Text} {document : Document} (h : document.uri ≠ uri)
    (purpose : Purpose) (ticket : Ticket) (l : EventLoop ι σ) :
    (conclude purpose document ticket l).reported uri = l.reported uri := by
  cases purpose with
  | judging =>
    unfold reported conclude
    rw [List.count_append]
    cases Session.failure? document ticket l.session.cache with
    | none => simp
    | some failure => simp [h]
  | rendering => rfl

theorem holds_conclude {h : Handler} (hm : h.compilation.uri = h.document.uri) (uri : Text)
    (l : EventLoop ι σ) : (conclude h.purpose h.document (.pending h.compilation) l).holds uri =
      (l.holds uri || (h.isFor uri && h.stores)) := by
  rw [holds, cache_conclude, PreviewCache.redeem, PreviewCache.entries_settle, holds, Handler.isFor,
    Handler.stores, hm]
  rcases h.compilation.result with fault | result
  · simp [Except.isOk, Except.toBool]
  · simp only [Table.contains_insert, Except.isOk, Except.toBool, Bool.and_true]
    rw [Bool.or_comm, decide_eq_decide.2 eq_comm]

theorem reported_conclude {h : Handler} (hm : h.compilation.uri = h.document.uri) (uri : Text)
    (l : EventLoop ι σ) : (conclude h.purpose h.document (.pending h.compilation) l).reported uri =
      l.reported uri + if h.isFor uri && h.reports then 1 else 0 := by
  obtain ⟨purpose, document, compilation⟩ := h
  cases purpose with
  | judging =>
    have hsome := Session.failure?_pending hm l.session.cache
    rw [← hsome]
    unfold reported conclude Handler.isFor
    rw [List.count_append]
    cases Session.failure? document (.pending compilation) l.session.cache with
    | none => simp
    | some failure => by_cases hu : document.uri = uri <;> simp [hu]
  | rendering => simp [reported, conclude, Handler.reports]

variable [Compiler ι]

/-- A handler that begins adds no preview, and it may wait for its own document. -/
theorem start_cases (purpose : Purpose) (tree : FileTree) (document : Document) (l : EventLoop ι σ) :
    ∃ more, (l.start purpose tree document).waiting = l.waiting ++ more ∧
      (∀ h ∈ more, h.document = document ∧ h.compilation.uri = document.uri) ∧
      (∀ uri, (l.start purpose tree document).holds uri = l.holds uri) ∧
      ∀ uri, document.uri ≠ uri → (l.start purpose tree document).reported uri = l.reported uri := by
  have hstart := PreviewCache.entries_start tree document l.session.cache
  have hpending : ∀ compilation cache, (PreviewCache.start tree document).perform l.session.cache =
      (.ok (.pending compilation), cache) → compilation.uri = document.uri := by
    intro compilation cache h
    rcases PreviewCache.start_eq_ok_iff.1 h with ⟨_, _, h, _⟩ | ⟨_, _, _, hcalls, h, _⟩
    · cases h
    · cases h
      exact hcalls.1
  unfold start Session.start Session.onCache
  rw [Attempt.perform_onPart]
  generalize (PreviewCache.start tree document).perform l.session.cache = answer at hstart hpending ⊢
  obtain ⟨fault | content | compilation, cache⟩ := answer
  · exact ⟨[], by simp, nofun, fun uri => congrArg (Table.contains uri) hstart, fun _ _ => rfl⟩
  · refine ⟨[], by simp [waiting_conclude], nofun, fun uri => ?_, fun uri hne => ?_⟩
    · rw [holds, cache_conclude]
      exact congrArg (Table.contains uri) hstart
    · exact reported_conclude_of_ne hne purpose _ _
  · refine ⟨[⟨purpose, document, compilation⟩], rfl, fun h hh => ?_,
      fun uri => congrArg (Table.contains uri) hstart, fun _ _ => rfl⟩
    obtain rfl := List.mem_singleton.1 hh
    exact ⟨rfl, hpending _ _ rfl⟩

theorem matched_take {l : EventLoop ι σ} (hm : l.Matched) (turn : Turn) : (l.take turn).Matched := by
  have hstart : ∀ (purpose : Purpose) (tree : FileTree) (document : Document) (l : EventLoop ι σ),
      l.Matched → (l.start purpose tree document).Matched := by
    intro purpose tree document l hm h hh
    obtain ⟨more, hwaiting, hmore, _⟩ := start_cases purpose tree document l
    rw [hwaiting] at hh
    rcases List.mem_append.1 hh with hh | hh
    · exact hm h hh
    · obtain ⟨rfl, huri⟩ := hmore h hh
      exact huri
  cases turn with
  | opens tree document => exact hstart _ _ _ _ hm
  | saves tree document => exact hstart _ _ _ (l.forget document) hm
  | renders tree document => exact hstart _ _ _ _ hm
  | closes document => exact hm
  | resumes position =>
    rw [take]
    split
    · exact hm
    · intro h hh
      rw [waiting_conclude] at hh
      exact hm h (List.mem_of_mem_eraseIdx hh)

theorem holds_take_closes (document : Document) (l : EventLoop ι σ) (uri : Text) :
    (l.take (.closes document)).holds uri = (uri ≠ document.uri && l.holds uri) := by
  have hclose : ((Session.close document).perform l.session).2.cache = l.session.cache.delete document := by
    rw [Session.close, Session.forget, Attempt.perform_bind, Attempt.perform_modify]
    rfl
  rw [holds, take, hclose]
  exact Table.contains_erase _ _ _

/-- What a turn that does not start the document with this URI comes to for it. -/
inductive Passes (uri : Text) (turn : Turn) (l l' : EventLoop ι σ) : Prop
  | apart (more : List Handler) (hmore : ∀ h ∈ more, h.isFor uri = false)
    (waiting : l'.waiting = l.waiting ++ more) (holds : l'.holds uri = l.holds uri)
    (reported : l'.reported uri = l.reported uri)
  | closed (document : Document) (hturn : turn.closed? = some document) (huri : document.uri = uri)
    (waiting : l'.waiting = l.waiting) (holds : l'.holds uri = false)
    (reported : l'.reported uri = l.reported uri)
  | resumed (h : Handler) (waiting : (h :: l'.waiting).Perm l.waiting)
    (holds : l'.holds uri = (l.holds uri || (h.isFor uri && h.stores)))
    (reported : l'.reported uri = l.reported uri + if h.isFor uri && h.reports then 1 else 0)

theorem Passes.of_start {uri : Text} {turn : Turn} {document : Document} (hne : document.uri ≠ uri)
    (purpose : Purpose) (tree : FileTree) {l first : EventLoop ι σ} (hw : first.waiting = l.waiting)
    (hh : first.holds uri = l.holds uri) (hr : first.reported uri = l.reported uri) :
    Passes uri turn l (first.start purpose tree document) := by
  obtain ⟨more, hwaiting, hmore, hholds, hreported⟩ := start_cases purpose tree document first
  refine .apart more (fun h hh => ?_) (hwaiting.trans (by rw [hw])) ((hholds uri).trans hh)
    ((hreported uri hne).trans hr)
  obtain ⟨rfl, _⟩ := hmore h hh
  exact decide_eq_false hne

/-- **A turn that does not start a document** leaves it alone, closes it, or lets one handler of those
that wait go on. -/
theorem passes_take {uri : Text} {l : EventLoop ι σ} (hm : l.Matched) {turn : Turn}
    (h : ∀ document ∈ turn.started?, document.uri ≠ uri) : Passes uri turn l (l.take turn) := by
  cases turn with
  | opens tree document => exact .of_start (h document rfl) _ _ rfl rfl rfl
  | saves tree document =>
    have hne := h document rfl
    refine .of_start hne _ _ rfl ?_ rfl
    rw [holds, forget, Session.forget, Attempt.perform_modify]
    exact (Table.contains_erase _ _ _).trans (by simp [Ne.symm hne, holds])
  | renders tree document => exact .of_start (h document rfl) _ _ rfl rfl rfl
  | closes document =>
    have hholds := holds_take_closes document l uri
    by_cases hu : document.uri = uri
    · exact .closed document rfl hu rfl (by simp [hholds, hu]) rfl
    · exact .apart [] (fun _ h => absurd h List.not_mem_nil) (List.append_nil _).symm
        (by simp [hholds, Ne.symm hu]) rfl
  | resumes position =>
    rw [take]
    split
    · exact .apart [] (fun _ h => absurd h List.not_mem_nil) (List.append_nil _).symm rfl rfl
    · rename_i handler hhandler
      have huri := hm handler (List.mem_of_getElem? hhandler)
      refine .resumed handler ?_ (holds_conclude huri uri _) (reported_conclude huri uri _)
      rw [waiting_conclude]
      exact perm_eraseIdx hhandler

end

end EventLoop

end JsonnetLens
