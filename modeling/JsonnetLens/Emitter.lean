import JsonnetLens.Fault
/-!
# Emitters

Listeners subscribe to an emitter, and a notification calls those that are subscribed when it
begins, in order, whatever they do to the emitter meanwhile.  Each subscription has a handle, the
number of subscriptions before it; calling the handle takes one subscription of that listener away,
the earliest, if there is one left.
-/
namespace JsonnetLens

structure Emitter (ι : Type) where
  /-- The live subscriptions in order. -/
  listeners : List ι := []
  /-- The listener of every subscription there ever was, by its handle. -/
  handles : List ι := []
  deriving Repr

namespace Emitter

variable {ι : Type} [DecidableEq ι]

def subscribe (e : Emitter ι) (listener : ι) : Emitter ι :=
  ⟨e.listeners ++ [listener], e.handles ++ [listener]⟩

def unsubscribe (e : Emitter ι) (handle : Nat) : Emitter ι :=
  match e.handles[handle]? with
  | some listener => { e with listeners := e.listeners.erase listener }
  | none => e

def clear (e : Emitter ι) : Emitter ι := { e with listeners := [] }

def size (e : Emitter ι) : Nat := e.listeners.length

/-- Calls the given listeners in order.  `react` is what a listener does to the emitter; a listener
that fails stops none of the others.  The calls made are the first part of the answer. -/
def call (react : ι → Attempt (Emitter ι) Unit) : List ι → Emitter ι → List ι × Emitter ι
  | [], e => ([], e)
  | listener :: rest, e =>
    let (calls, e) := call react rest ((react listener).perform e).2
    (listener :: calls, e)

/-- Calls the listeners that are subscribed now. -/
def notify (react : ι → Attempt (Emitter ι) Unit) (e : Emitter ι) : List ι × Emitter ι :=
  call react e.listeners e

omit [DecidableEq ι] in
/-- Who is called does not depend on what the calls do. -/
theorem call_eq (react : ι → Attempt (Emitter ι) Unit) (listeners : List ι) (e : Emitter ι) :
    call react listeners e =
      (listeners, listeners.foldl (fun e listener => ((react listener).perform e).2) e) := by
  induction listeners generalizing e with
  | nil => rfl
  | cons listener rest ih => rw [call, ih, List.foldl_cons]

end Emitter

/-! ## Listeners with a reaction -/

/-- What a listener does when it is called. -/
inductive Reaction where
  | ignore
  | fail
  | unsubscribe (handle : Nat)
  /-- Subscribes a listener of this name that ignores its calls. -/
  | subscribe (name : Text)
  | clear
  deriving DecidableEq, Repr

structure Listener where
  name : Text
  reaction : Reaction
  deriving DecidableEq, Repr

/-- The reaction of a listener on the emitter that calls it. -/
def Listener.react (l : Listener) : Attempt (Emitter Listener) Unit :=
  match l.reaction with
  | .ignore => pure ()
  | .fail => throw .listenerFailed
  | .unsubscribe handle => modify (·.unsubscribe handle)
  | .subscribe name => modify (·.subscribe ⟨name, .ignore⟩)
  | .clear => modify Emitter.clear

end JsonnetLens
