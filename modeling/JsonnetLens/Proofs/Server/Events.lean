import JsonnetLens.EditorServer
import JsonnetLens.Proofs.Session.EventLoop
/-!
# A server that hears several events

A handler of the server runs until it calls the compiler, and goes on from the result when other
events have been heard.  `ServerLoop.take` is one such turn.  A handler that nothing interrupts does
what the whole handler does (`perform_begin_goOn`, `ServerLoop.uninterrupted`).
-/
namespace JsonnetLens

namespace Attempt

variable {σ τ α β : Type}

/-- Two computations that begin alike and agree from there on. -/
theorem perform_bind_congr {x : Attempt σ α} {f g : α → Attempt σ β} {s : σ}
    (h : ∀ a s', x.perform s = (.ok a, s') → (f a).perform s' = (g a).perform s') :
    (x >>= f).perform s = (x >>= g).perform s := by
  rw [perform_bind, perform_bind]
  rcases hx : x.perform s with ⟨fault | a, s'⟩
  · rfl
  · exact h a s' hx

/-- What holds before holds afterwards, also when the computation fails. -/
def Preserves (inv : σ → Prop) (x : Attempt σ α) : Prop := ∀ s, inv s → inv (x.perform s).2

namespace Preserves

variable {inv : σ → Prop}

theorem pure (a : α) : Preserves inv (Pure.pure a) := fun _ hs => hs

theorem lift (answer : Except Fault α) : Preserves inv (liftM answer) := fun s hs => by
  rw [perform_lift]
  exact hs

theorem get : Preserves inv (MonadState.get : Attempt σ σ) := fun _ hs => hs

theorem modify {f : σ → σ} (h : ∀ s, inv s → inv (f s)) :
    Preserves inv (MonadState.modifyGet fun s => ((), f s) : Attempt σ Unit) := h

theorem bind {x : Attempt σ α} {f : α → Attempt σ β} (hx : Preserves inv x)
    (hf : ∀ a, Preserves inv (f a)) : Preserves inv (x >>= f) := fun s hs => by
  have hs' := hx s hs
  rw [perform_bind]
  generalize x.perform s = answer at hs' ⊢
  obtain ⟨fault | a, s'⟩ := answer
  · exact hs'
  · exact hf a s' hs'

theorem onPart {get : σ → τ} {set : τ → σ → σ} {part : τ → Prop} {x : Attempt τ α}
    (hx : Preserves part x) (hset : ∀ t s, part t → part (get (set t s))) :
    Preserves (fun s => part (get s)) (Attempt.onPart get set x) := fun s hs =>
  hset _ s (hx (get s) hs)

end Preserves
end Attempt

namespace EditorServer

/-- What the server is told. -/
inductive Event where
  | configured (config : Json)
  | opened (tree : FileTree) (uri languageId : Text)
  | saved (tree : FileTree) (uri : Text)
  | closed (uri : Text)
  | previewed (tree : FileTree) (arguments : List Text)
  | addressed (arguments : List Text)
  | ended

/-- An event with its whole handler. -/
def handle [Nesting] : Event → Attempt EditorServer Unit
  | .configured config => configure config
  | .opened tree uri languageId => didOpen tree uri languageId
  | .saved tree uri => didSave tree uri
  | .closed uri => didClose uri
  | .previewed tree arguments => do let _ ← preview tree arguments
  | .addressed arguments => do let _ ← previewUri arguments
  | .ended => shutdown

/-! ## The two halves of a handler -/

/-- A preview that a handler has asked for. -/
structure Request where
  purpose : Purpose
  document : Document
  ticket : Ticket

def ask (purpose : Purpose) (tree : FileTree) (document : Document) :
    Attempt EditorServer (Option Request) := do
  return some ⟨purpose, document, ← onSession (Session.start tree document)⟩

/-- A handler up to its preview, or to its end if it needs none. -/
def begin [Nesting] : Event → Attempt EditorServer (Option Request)
  | .opened tree uri languageId => do
    let document ← (documentOf uri : Except Fault _)
    modify fun s =>
      { s with documents := s.documents.insert (documentKey uri) ⟨document, some languageId⟩ }
    if languageId = language then ask .judging tree document else return none
  | .saved tree uri => do
    let found ← find uri
    if compiles found.language then
      onSession (Session.forget found.document)
      ask .judging tree found.document
    else return none
  | .previewed tree (uri :: _) => do
    let source ← ((PreviewUri.sourceOf? uri).mapError Fault.badHost : Except Fault _)
    let found ← find source
    ask .rendering tree found.document
  | event => do
    handle event
    return none

/-- What a handler does with its preview. -/
def finish [Nesting] (request : Request) : Attempt EditorServer Unit :=
  match request.purpose with
  | .judging => do
    match ← onSession (Session.finishOpen request.document request.ticket) with
    | .accepted => pure ()
    | .rejected _ message => log message
  | .rendering => do
    match (← onSession (Session.finishRender request.document request.ticket)).log with
    | none => pure ()
    | some message => log message

def goOn [Nesting] : Option Request → Attempt EditorServer Unit
  | none => pure ()
  | some request => finish request

/-! ## The halves make up the whole -/

/-- All that was published has been sent. -/
def Flushed (s : EditorServer) : Prop := s.session.reporter.sink.sent = []

theorem flushed_setSession (session : Session Shell Publisher) (s : EditorServer) :
    Flushed (setSession session s) := rfl

theorem setSession_of_sent {session : Session Shell Publisher} (h : session.reporter.sink.sent = [])
    (s : EditorServer) : setSession session s = { s with session } := by
  obtain ⟨cache, ⟨published, sent⟩, publishedFor⟩ := session
  obtain rfl : sent = [] := h
  simp only [setSession, List.map_nil, List.append_nil]

/-- What publishes nothing may be a computation on its own. -/
theorem perform_onSession_bind {α β γ : Type} {s : EditorServer}
    {x : Attempt (Session Shell Publisher) α} (hs : Flushed s)
    (hx : (x.perform s.session).2.reporter = s.session.reporter)
    (f : α → Attempt (Session Shell Publisher) β) (k : β → Attempt EditorServer γ) :
    (onSession (x >>= f) >>= k).perform s =
      (onSession x >>= fun a => onSession (f a) >>= k).perform s := by
  simp only [onSession, Attempt.perform_onPart, Attempt.perform_bind]
  generalize x.perform s.session = answer at hx ⊢
  obtain ⟨fault | a, session⟩ := answer
  · rfl
  · have hsent : session.reporter.sink.sent = [] := by rw [hx]; exact hs
    simp only [setSession_of_sent hsent]
    rfl

theorem state_find (uri : Text) (s : EditorServer) : ((find uri).perform s).2 = s := by
  unfold find
  rw [Attempt.perform_get_bind]
  rcases s.documents.get? (documentKey uri) with _ | found
  · rw [Attempt.state_bind_pure, Attempt.perform_lift]
  · rfl

theorem reporter_start (tree : FileTree) (document : Document) (s : Session Shell Publisher) :
    ((Session.start tree document).perform s).2.reporter = s.reporter := rfl

theorem perform_ask_judging [Nesting] {s : EditorServer} (hs : Flushed s) (tree : FileTree)
    (document : Document) :
    (ask .judging tree document >>= goOn).perform s =
      (do match ← onSession (Session.open tree document) with
          | .accepted => pure ()
          | .rejected _ message => log message).perform s := by
  simp only [ask, bind_assoc, pure_bind, goOn, finish]
  exact (perform_onSession_bind hs (reporter_start tree document s.session) _ _).symm

theorem perform_ask_rendering [Nesting] {s : EditorServer} (hs : Flushed s) (tree : FileTree)
    (document : Document) :
    (ask .rendering tree document >>= goOn).perform s =
      (do match (← onSession (Session.render tree document)).log with
          | none => pure ()
          | some message => log message).perform s := by
  simp only [ask, bind_assoc, pure_bind, goOn, finish]
  exact (perform_onSession_bind hs (reporter_start tree document s.session) _ _).symm

theorem begin_goOn_of_done [Nesting] {event : Event} (h : begin event = (do handle event; return none)) :
    begin event >>= goOn = handle event := by
  rw [h, bind_assoc]
  exact bind_pure _

/-- **The halves make up the whole handler.** -/
theorem perform_begin_goOn [Nesting] {s : EditorServer} (hs : Flushed s) (event : Event) :
    (begin event >>= goOn).perform s = (handle event).perform s := by
  -- what comes before the first half leaves nothing to be sent, so the halves may be parted there
  cases event with
  | opened tree uri languageId =>
    simp only [begin, handle, didOpen, bind_assoc]
    refine Attempt.perform_bind_congr fun document s₁ h₁ => ?_
    rw [Attempt.perform_lift, Prod.mk.injEq] at h₁
    refine Attempt.perform_bind_congr fun _ s₂ h₂ => ?_
    rw [Attempt.perform_modify, Prod.mk.injEq] at h₂
    have hs₂ : Flushed s₂ := by
      rw [← h₂.2, ← h₁.2]
      exact hs
    split
    · exact perform_ask_judging hs₂ tree document
    · rfl
  | saved tree uri =>
    simp only [begin, handle, didSave, bind_assoc]
    refine Attempt.perform_bind_congr fun found s₁ h₁ => ?_
    have hs₁ : Flushed s₁ := by
      rw [← state_find uri s, h₁] at hs
      exact hs
    split
    · rw [bind_assoc, Session.save, perform_onSession_bind hs₁ rfl]
      refine Attempt.perform_bind_congr fun _ s₂ h₂ => ?_
      have hs₂ : Flushed s₂ := by
        obtain rfl := congrArg Prod.snd h₂
        exact flushed_setSession _ s₁
      exact perform_ask_judging hs₂ tree found.document
    · rfl
  | previewed tree arguments =>
    cases arguments with
    | nil => rfl
    | cons uri rest =>
      simp only [begin, handle, preview, bind_assoc]
      refine Attempt.perform_bind_congr fun source s₁ h₁ => ?_
      rw [Attempt.perform_lift, Prod.mk.injEq] at h₁
      refine Attempt.perform_bind_congr fun found s₂ h₂ => ?_
      have hs₂ : Flushed s₂ := by
        rw [h₁.2, ← state_find source s₁, h₂] at hs
        exact hs
      rw [perform_ask_rendering hs₂]
      refine Attempt.perform_bind_congr fun rendering s₃ _ => ?_
      rcases rendering.log with _ | message <;> simp
  | configured config => rw [begin_goOn_of_done rfl]
  | closed uri => rw [begin_goOn_of_done rfl]
  | addressed arguments => rw [begin_goOn_of_done rfl]
  | ended => rw [begin_goOn_of_done rfl]

end EditorServer

/-! ## Several events under way -/

/-- A server and the handlers that wait for the compiler, the oldest first. -/
structure ServerLoop where
  server : EditorServer
  waiting : List Handler := []

namespace ServerLoop

/-- What the server does without waiting. -/
inductive Turn where
  | hears (event : EditorServer.Event)
  /-- The waiting handler at this position goes on. -/
  | resumes (position : Nat)

def onServer {α : Type} (x : Attempt EditorServer α) : Attempt ServerLoop α :=
  Attempt.onPart ServerLoop.server (fun server l => { l with server }) x

/-- A handler runs until it waits, or to its end. -/
def take [Nesting] : Turn → Attempt ServerLoop Unit
  | .hears event => do
    match ← onServer (EditorServer.begin event) with
    | some ⟨purpose, document, .pending compilation⟩ =>
      modify fun l => { l with waiting := l.waiting ++ [⟨purpose, document, compilation⟩] }
    | request => onServer (EditorServer.goOn request)
  | .resumes position => do
    match (← get).waiting[position]? with
    | none => pure ()
    | some handler =>
      modify fun l => { l with waiting := l.waiting.eraseIdx position }
      onServer (EditorServer.finish
        ⟨handler.purpose, handler.document, .pending handler.compilation⟩)

/-- **A handler that nothing interrupts** leaves the server as the whole handler does. -/
theorem uninterrupted [Nesting] {l : ServerLoop} (hl : l.server.Flushed) (event : EditorServer.Event) :
    ((take (.resumes l.waiting.length)).perform ((take (.hears event)).perform l).2).2 =
      { l with server := ((EditorServer.handle event).perform l.server).2 } := by
  rw [← EditorServer.perform_begin_goOn hl]
  simp only [take, onServer, Attempt.perform_bind, Attempt.perform_onPart, Attempt.perform_get]
  rcases (EditorServer.begin event).perform l.server with
    ⟨fault | _ | ⟨purpose, document, content | compilation⟩, server⟩
  · simp
  · simp
  · simp
  · simp [EditorServer.goOn, Attempt.perform_bind, List.eraseIdx_append_of_length_le]

/-- The runs of a server, each with its turns and how they ended; one that fails ends none. -/
inductive Run [Nesting] (first : ServerLoop) : List (Turn × Except Fault Unit) → ServerLoop → Prop where
  | start : Run first [] first
  | next {history : List (Turn × Except Fault Unit)} {l : ServerLoop} (turn : Turn)
      (run : Run first history l) :
      Run first (history ++ [(turn, ((take turn).perform l).1)]) ((take turn).perform l).2

end ServerLoop

/-! ## What every turn preserves -/

namespace EditorServer

/-- A property that none of the parts of a handler disturbs; a configuration may. -/
structure Undisturbed [Nesting] (inv : EditorServer → Prop) : Prop where
  documents : ∀ {s} documents, inv s → inv { s with documents }
  logs : ∀ message, (log message).Preserves inv
  starts : ∀ tree document, (onSession (Session.start tree document)).Preserves inv
  forgets : ∀ document, (onSession (Session.forget document)).Preserves inv
  closes : ∀ document, (onSession (Session.close document)).Preserves inv
  judges : ∀ document ticket, (onSession (Session.finishOpen document ticket)).Preserves inv
  renders : ∀ document ticket, (onSession (Session.finishRender document ticket)).Preserves inv
  ends : shutdown.Preserves inv

namespace Undisturbed

variable {inv : EditorServer → Prop}

theorem preserves_ask [Nesting] (h : Undisturbed inv) (purpose : Purpose) (tree : FileTree)
    (document : Document) : (ask purpose tree document).Preserves inv :=
  (h.starts tree document).bind fun _ => .pure _

theorem preserves_find (uri : Text) : (find uri).Preserves inv := fun s hs => by
  rw [state_find]
  exact hs

theorem preserves_begin [Nesting] (h : Undisturbed inv) (event : Event)
    (hconfigured : ∀ config, event = .configured config → (configure config).Preserves inv) :
    (begin event).Preserves inv := by
  cases event with
  | configured config => exact (hconfigured config rfl).bind fun _ => .pure _
  | opened tree uri languageId =>
    refine .bind (.lift _) fun document => .bind (.modify fun s => h.documents _) fun _ => ?_
    split
    · exact h.preserves_ask _ _ _
    · exact .pure _
  | saved tree uri =>
    refine .bind (preserves_find uri) fun found => ?_
    split
    · exact .bind (h.forgets _) fun _ => h.preserves_ask _ _ _
    · exact .pure _
  | closed uri =>
    have hclose : (didClose uri).Preserves inv :=
      .bind (.modify fun s => h.documents _) fun _ =>
        .bind (preserves_find uri) fun found => h.closes found.document
    exact hclose.bind fun _ => .pure _
  | previewed tree arguments =>
    cases arguments with
    | nil => exact .bind (.bind (.pure _) fun _ => .pure _) fun _ => .pure _
    | cons uri rest =>
      exact .bind (.lift _) fun source => .bind (preserves_find source) fun found =>
        h.preserves_ask _ _ _
  | addressed arguments =>
    have haddress : (previewUri arguments).Preserves inv := by
      cases arguments with
      | nil => exact .pure _
      | cons uri rest => exact .bind (.lift _) fun _ => .pure _
    exact .bind (.bind haddress fun _ => .pure _) fun _ => .pure _
  | ended => exact h.ends.bind fun _ => .pure _

theorem preserves_finish [Nesting] (h : Undisturbed inv) (request : Request) :
    (finish request).Preserves inv := by
  obtain ⟨purpose, document, ticket⟩ := request
  cases purpose with
  | judging =>
    refine .bind (h.judges document ticket) fun verdict => ?_
    cases verdict with
    | accepted => exact .pure _
    | rejected batch message => exact h.logs message
  | rendering =>
    refine .bind (h.renders document ticket) fun rendering => ?_
    rcases rendering.log with _ | message
    · exact .pure _
    · exact h.logs message

/-- **A turn preserves what no part of a handler disturbs**, also when it fails. -/
theorem preserves_take [Nesting] (h : Undisturbed inv) (turn : ServerLoop.Turn)
    (hconfigured : ∀ config, turn = .hears (.configured config) → (configure config).Preserves inv) :
    (ServerLoop.take turn).Preserves fun l => inv l.server := by
  cases turn with
  | hears event =>
    have hbegin : (begin event).Preserves inv :=
      h.preserves_begin event fun config hevent => hconfigured config (by rw [hevent])
    refine .bind (.onPart hbegin fun _ _ hs => hs) fun request => ?_
    rcases request with _ | ⟨purpose, document, content | compilation⟩
    · exact .onPart (.pure _) fun _ _ hs => hs
    · exact .onPart (h.preserves_finish _) fun _ _ hs => hs
    · exact .modify fun _ hs => hs
  | resumes position =>
    refine .bind .get fun l => ?_
    rcases l.waiting[position]? with _ | handler
    · exact .pure _
    · exact .bind (.modify fun _ hs => hs) fun _ => .onPart (h.preserves_finish _) fun _ _ hs => hs

end Undisturbed

theorem undisturbed_flushed [Nesting] : Undisturbed Flushed where
  documents := fun _ hs => hs
  logs := fun _ _ hs => hs
  starts := fun _ _ s _ => flushed_setSession _ s
  forgets := fun _ s _ => flushed_setSession _ s
  closes := fun _ s _ => flushed_setSession _ s
  judges := fun _ _ s _ => flushed_setSession _ s
  renders := fun _ _ s _ => flushed_setSession _ s
  ends := fun _ hs => hs

theorem flushed_configure [Nesting] (config : Json) : (configure config).Preserves Flushed := by
  cases config with
  | object fields =>
    exact .bind (.lift _) fun _ => .bind .get fun _ => .bind (.lift _) fun _ =>
      .bind (.modify fun _ hs => hs) fun _ => undisturbed_flushed.logs _
  | _ => exact .pure _

theorem launch_eq_ok [Nesting] {environ : Environ} {fates : List Fate} {server : EditorServer}
    (h : launch environ fates = .ok server) :
    ∃ settings, Settings.withEnviron {} environ = .ok settings ∧
      server = {
        environ
        session := {
          cache := { compiler := { settings, fates }, settings }
          reporter := { sink := {} } } } := by
  obtain ⟨settings, hsettings, h⟩ := Attempt.exists_of_bind_eq_ok h
  exact ⟨settings, hsettings, (Except.ok.inj h).symm⟩

theorem flushed_launch [Nesting] {environ : Environ} {fates : List Fate} {server : EditorServer}
    (h : launch environ fates = .ok server) : Flushed server := by
  obtain ⟨settings, _, rfl⟩ := launch_eq_ok h
  rfl

end EditorServer

theorem ServerLoop.Run.flushed [Nesting] {environ : Environ} {fates : List Fate} {server : EditorServer}
    {history : List (Turn × Except Fault Unit)} {l : ServerLoop}
    (hlaunch : EditorServer.launch environ fates = .ok server) (run : Run ⟨server, []⟩ history l) :
    l.server.Flushed := by
  induction run with
  | start => exact EditorServer.flushed_launch hlaunch
  | next turn _ ih =>
    exact EditorServer.undisturbed_flushed.preserves_take turn
      (fun config _ => EditorServer.flushed_configure config) _ ih

end JsonnetLens
