import JsonnetLens.Emitter
/-!
# What a notification reaches

While a notification is on its way its listeners may subscribe others, call handles, clear the emitter
or fail.  `broadcast` is the notification as a loop, in which each call is written down with its event
and a failure is caught; it reaches those that were subscribed when it began, each as often as it was
(`broadcast_reaches_subscribed`).
-/
namespace JsonnetLens

theorem Attempt.perform_tryCatch {σ α : Type} (x : Attempt σ α) (handler : Fault → Attempt σ α)
    (s : σ) :
    (tryCatch x handler).perform s =
      match x.perform s with
      | (.ok a, t) => (.ok a, t)
      | (.error fault, t) => (handler fault).perform t := by
  unfold perform ExceptT.run StateT.run
  simp only [tryCatch, tryCatchThe, MonadExceptOf.tryCatch, ExceptT.tryCatch, ExceptT.mk, bind,
    StateT.bind]
  cases x s with
  | mk answer t => cases answer <;> rfl

namespace Emitter

variable {ι ε : Type}

/-! ## What listeners do -/

/-- What a listener can do to the emitter that calls it. -/
inductive Act (ι : Type) where
  | fail
  | unsubscribe (handle : Nat)
  | subscribe (listener : ι)
  | clear
  deriving DecidableEq, Repr

namespace Act

variable [DecidableEq ι]

def attempt : Act ι → Attempt (Emitter ι) Unit
  | fail => throw .listenerFailed
  | unsubscribe handle => modify (·.unsubscribe handle)
  | subscribe listener => modify (·.subscribe listener)
  | clear => modify Emitter.clear

/-- The emitter after an act. -/
def apply (e : Emitter ι) : Act ι → Emitter ι
  | fail => e
  | unsubscribe handle => e.unsubscribe handle
  | subscribe listener => e.subscribe listener
  | clear => e.clear

/-- The emitter after a listener's acts, of which those before the first failure are done. -/
def applyAll (acts : List (Act ι)) (e : Emitter ι) : Emitter ι :=
  (acts.takeWhile (· ≠ fail)).foldl apply e

theorem perform_attempt (act : Act ι) (e : Emitter ι) :
    act.attempt.perform e =
      (if act = fail then .error .listenerFailed else .ok (), act.apply e) := by
  cases act <;> rfl

theorem state_attemptAll (acts : List (Act ι)) (e : Emitter ι) :
    ((acts.forM attempt).perform e).2 = applyAll acts e := by
  simp only [List.forM_eq_forM]
  induction acts generalizing e with
  | nil => rfl
  | cons act acts ih =>
    rw [List.forM_cons, Attempt.perform_bind, perform_attempt, applyAll]
    by_cases hfail : act = fail
    · subst hfail
      simp [apply]
    · rw [if_neg hfail, List.takeWhile_cons_of_pos (by simpa using hfail)]
      exact ih (apply e act)

end Act

/-! ## The loop -/

/-- An emitter with the calls that were made, each with its event. -/
structure CallLog (ι ε : Type) where
  emitter : Emitter ι
  calls : List (ι × ε) := []

section
variable (react : ι → ε → Attempt (Emitter ι) Unit) (event : ε)

/-- One call. -/
def hear (listener : ι) : Attempt (CallLog ι ε) Unit := do
  modify fun log => { log with calls := log.calls ++ [(listener, event)] }
  Attempt.onPart CallLog.emitter (fun emitter log => { log with emitter }) (react listener event)

/-- The calls of a notification, one after the other. -/
def broadcast : Attempt (CallLog ι ε) Unit := do
  let log ← get
  log.emitter.listeners.forM fun listener => tryCatch (hear react event listener) fun _ => pure ()

/-- **A call is written down and answered, whatever the listener does.** -/
theorem perform_hear_caught (listener : ι) (log : CallLog ι ε) :
    (tryCatch (hear react event listener) fun _ => pure ()).perform log =
      (.ok (), ⟨((react listener event).perform log.emitter).2, log.calls ++ [(listener, event)]⟩) := by
  rw [Attempt.perform_tryCatch, hear, Attempt.perform_bind, Attempt.perform_modify]
  simp only [Attempt.perform_onPart]
  rcases (react listener event).perform log.emitter with ⟨_ | _, e⟩ <;> rfl

/-- The calls that are left to make do not depend on what the emitter has become. -/
theorem perform_forM_hear (listeners : List ι) (log : CallLog ι ε) :
    (listeners.forM fun listener => tryCatch (hear react event listener) fun _ => pure ()).perform log =
      (.ok (), ⟨listeners.foldl (fun e listener => ((react listener event).perform e).2) log.emitter,
        log.calls ++ listeners.map (·, event)⟩) := by
  simp only [List.forM_eq_forM]
  induction listeners generalizing log with
  | nil => simp
  | cons listener rest ih =>
    rw [List.forM_cons, Attempt.perform_bind, perform_hear_caught]
    simp only [ih, List.foldl_cons, List.map_cons, List.append_assoc, List.singleton_append]

end

/-- **A notification reaches exactly those who are subscribed when it begins.**  Whatever its listeners
do, the loop comes to its end; it has called each entry of that moment once and in order, with the
event, and nobody else; and what it leaves is what their acts make of the emitter in that order.
`notify` gives these calls and this emitter. -/
theorem broadcast_reaches_subscribed [DecidableEq ι] (acts : ι → ε → List (Act ι)) (event : ε)
    (log : CallLog ι ε) :
    let after := log.emitter.listeners.foldl (fun e listener => Act.applyAll (acts listener event) e)
      log.emitter
    (broadcast (fun listener event => (acts listener event).forM Act.attempt) event).perform log =
      (.ok (), ⟨after, log.calls ++ log.emitter.listeners.map (·, event)⟩) ∧
    log.emitter.notify (fun listener => (acts listener event).forM Act.attempt) =
      (log.emitter.listeners, after) := by
  intro after
  have hafter : log.emitter.listeners.foldl
      (fun e listener => (((acts listener event).forM Act.attempt).perform e).2) log.emitter = after := by
    simp only [Act.state_attemptAll, after]
  refine ⟨?_, ?_⟩
  · rw [broadcast, Attempt.perform_get_bind, perform_forM_hear, hafter]
  · rw [notify, call_eq, hafter]

/-- The first listener clears the emitter and subscribes another one, the second fails before its last
act; the first has two entries and is called for both. -/
example :
    notify (fun l : Nat =>
        (if l = 0 then [.clear, .subscribe 2] else [.unsubscribe 2, .fail, .clear]).forM Act.attempt)
      ⟨[0, 1, 0], [0, 1, 0]⟩ = ([0, 1, 0], ⟨[2], [0, 1, 0, 2, 2]⟩) := rfl

end Emitter
end JsonnetLens
