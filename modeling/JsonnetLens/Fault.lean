import JsonnetLens.Json.Reader
import JsonnetLens.Uri.Host
/-!
# Faults

Every way in which an operation can fail, by its cause, and the wording of each in one function.
An operation that fails keeps what it did before: `Attempt σ` runs on a state of type `σ` that
outlives the fault.
-/
namespace JsonnetLens

/-- The two coordinates of a position in a document. -/
inductive Coordinate where
  | line
  | character
  deriving DecidableEq, Repr

def Coordinate.name : Coordinate → Text
  | .line => "line".toList
  | .character => "character".toList

inductive Fault where
  /-- A text is not JSON. -/
  | badJson (error : Json.SyntaxError)
  /-- An integer has more digits than are converted. -/
  | tooManyDigits (count : Nat)
  /-- Values nest deeper than they can be read or written. -/
  | tooDeep
  | notANumber (text : WideText)
  /-- A coordinate does not fit the protocol's unsigned integers. -/
  | coordinateRange (coordinate : Coordinate) (value : Int)
  | badHost (fault : Uri.HostFault)
  /-- The directory of all components is not a component. -/
  | namelessComponent
  /-- A value is of a kind that the operation does not take. -/
  | wrongKind
  /-- A value is not an object where fields are read. -/
  | noFields
  /-- An integer is beyond every double. -/
  | beyondDouble
  /-- The operating system refuses to start a process. -/
  | startRefused (reason : Text)
  /-- What is waited for never comes. -/
  | endless
  | listenerFailed
  deriving DecidableEq, Repr

namespace Fault

/-- The greatest line or character of a position. -/
def greatestCoordinate : Nat := 2147483647

def message : Fault → Text
  | .badJson e => e.message
  | .tooManyDigits count =>
    "Exceeds the limit (".toList ++ Text.ofNat Text.digitLimit ++
      " digits) for integer string conversion: value has ".toList ++ Text.ofNat count ++
      " digits; use sys.set_int_max_str_digits() to increase the limit".toList
  | .tooDeep => "values nest too deep".toList
  | .notANumber text => "could not convert string to float: ".toList ++ Quoted.quote text
  | .coordinateRange coordinate value =>
    "Position.".toList ++ coordinate.name ++ " should be in range [0:".toList ++
      Text.ofNat greatestCoordinate ++ "], but was ".toList ++ Text.ofInt value ++ ['.']
  | .badHost fault => fault.message
  | .namelessComponent => "PurePosixPath('.') has an empty name".toList
  | .wrongKind => "a value of another kind was expected".toList
  | .noFields => "an object was expected".toList
  | .beyondDouble => "int too large to convert to float".toList
  | .startRefused reason => reason
  | .endless => "the wait has no end".toList
  | .listenerFailed => "a listener failed".toList

def ofLimit : Json.Limit → Fault
  | .digits count => .tooManyDigits count
  | .depth => .tooDeep

def ofReadError : Json.ReadError → Fault
  | .badSyntax error => .badJson error
  | .beyond limit => .ofLimit limit

end Fault

/-- A computation on a state that may fail; what it did to the state before it failed stays done. -/
abbrev Attempt (σ : Type) := ExceptT Fault (StateM σ)

namespace Attempt

/-- The answer and the state afterwards. -/
def perform {σ α : Type} (x : Attempt σ α) (s : σ) : Except Fault α × σ := (ExceptT.run x).run s

/-- Runs a computation on a part of the state. -/
def onPart {σ τ α : Type} (get : σ → τ) (set : τ → σ → σ) (x : Attempt τ α) : Attempt σ α :=
  ExceptT.mk fun s =>
    let (answer, part) := x.perform (get s)
    (answer, set part s)

variable {σ τ α β : Type}

@[simp] theorem perform_pure (a : α) (s : σ) : (pure a : Attempt σ α).perform s = (.ok a, s) := rfl

@[simp] theorem perform_throw (fault : Fault) (s : σ) :
    (throw fault : Attempt σ α).perform s = (.error fault, s) := rfl

@[simp] theorem perform_get (s : σ) : (get : Attempt σ σ).perform s = (.ok s, s) := rfl

@[simp] theorem perform_modify (f : σ → σ) (s : σ) :
    (modify f : Attempt σ Unit).perform s = (.ok (), f s) := rfl

theorem perform_bind (x : Attempt σ α) (f : α → Attempt σ β) (s : σ) :
    (x >>= f).perform s =
      match x.perform s with
      | (.ok a, s') => (f a).perform s'
      | (.error fault, s') => (.error fault, s') := by
  unfold perform ExceptT.run StateT.run
  simp only [bind, ExceptT.bind, ExceptT.mk, StateT.bind, ExceptT.bindCont]
  cases x s with
  | mk answer s' => cases answer <;> rfl

/-- Turning the answer into another one leaves the state alone. -/
theorem state_bind_pure (x : Attempt σ α) (f : α → β) (s : σ) :
    ((x >>= fun a => pure (f a)).perform s).2 = (x.perform s).2 := by
  rw [perform_bind]
  rcases x.perform s with ⟨_ | _, _⟩ <;> rfl

@[simp] theorem perform_get_bind (f : σ → Attempt σ β) (s : σ) :
    (get >>= f).perform s = (f s).perform s := rfl

/-- A sequence of two that succeeds: the first succeeds and the second goes on from its state. -/
theorem perform_bind_eq_ok {x : Attempt σ α} {f : α → Attempt σ β} {s s' : σ} {b : β} :
    (x >>= f).perform s = (.ok b, s') ↔
      ∃ a t, x.perform s = (.ok a, t) ∧ (f a).perform t = (.ok b, s') := by
  rw [perform_bind]
  rcases x.perform s with ⟨_ | a, t⟩
  · simp
  · constructor
    · intro h
      exact ⟨a, t, rfl, h⟩
    · rintro ⟨_, _, h, hf⟩
      cases h
      exact hf

theorem eq_ok_of_toOption {ε : Type} {x : Except ε α} {a : α} (h : x.toOption = some a) : x = .ok a := by
  cases x with
  | error fault => simp [Except.toOption] at h
  | ok b => simpa [Except.toOption] using h

/-- Two answers in sequence that come to one: the first is there and the second follows from it. -/
theorem exists_of_bind_eq_ok {ε : Type} {x : Except ε α} {f : α → Except ε β} {b : β}
    (h : x >>= f = .ok b) : ∃ a, x = .ok a ∧ f a = .ok b := by
  cases x with
  | error fault => cases h
  | ok a => exact ⟨a, rfl, h⟩

/-- A computation with this answer, without its state being computed. -/
theorem perform_eq_ok {x : Attempt σ α} {s : σ} {a : α}
    (h : (x.perform s).1.toOption = some a) : x.perform s = (.ok a, (x.perform s).2) :=
  Prod.ext (eq_ok_of_toOption h) rfl

/-- A computation without a state leaves the state alone. -/
@[simp] theorem perform_lift (answer : Except Fault α) (s : σ) :
    (liftM answer : Attempt σ α).perform s = (answer, s) := by
  cases answer <;> rfl

@[simp] theorem perform_onPart (get : σ → τ) (set : τ → σ → σ) (x : Attempt τ α) (s : σ) :
    (onPart get set x).perform s = ((x.perform (get s)).1, set (x.perform (get s)).2 s) := rfl

end Attempt
end JsonnetLens
