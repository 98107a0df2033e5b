import JsonnetLens.Compiler.Command
import JsonnetLens.Text.Utf8
import JsonnetLens.Text.Percent
/-!
# Compiler runs

A compiler takes a mode, arguments and a directory, and either finishes with a result or is refused
by the operating system.  `Shell` starts processes: it answers a missing executable and a process
that exceeds the time limit with results of its own, and waits for ever where neither the process nor
the limit has an end.  `Script` answers from a list, for runs without processes.
-/
namespace JsonnetLens

/-- What a run of the compiler leaves behind. -/
structure Result where
  exitCode : Int := 0
  stdout : Text := []
  stderr : Text := []
  /-- The command that ran. -/
  command : Text := []
  deriving DecidableEq, Repr

inductive Outcome where
  | finished (result : Result)
  | refused (reason : Text)
  deriving DecidableEq, Repr

class Compiler (ι : Type) where
  invoke : Mode → (arguments : List Json) → (directory : Text) → Attempt ι Outcome

/-- The first of several answers and those that are left; the last one repeats. -/
def nextAnswer {α : Type} (default : α) : List α → α × List α
  | [] => (default, [])
  | [last] => (last, [last])
  | first :: rest => (first, rest)

/-! ## Processes -/

/-- What starting a process leads to.  How long a process takes is told only by whether it ends before
its time limit is up: one that is too slow for its limit is one that `outlasts` it. -/
inductive Fate where
  /-- There is no such executable. -/
  | missing
  | refused (reason : Text)
  /-- It ends by itself, and so soon that any time at all is enough. -/
  | runs (exitCode : Int) (stdout stderr : List UInt8)
  /-- It is still there when its time limit is up; a recording may let any limit be up. -/
  | outlasts
  /-- It never ends by itself, so an infinite limit is never up. -/
  | hangs

/-- What is done to a process from outside. -/
inductive Intervention where
  | kill
  /-- To wait until it is gone. -/
  | await
  deriving DecidableEq, Repr

/-- What ends a process that exceeds the time limit. -/
def Intervention.stopping : List Intervention := [.kill, .await]

/-- A process that was started, or was to be started. -/
structure Start where
  arguments : List Json
  directory : Text
  /-- What was done to it, in order. -/
  interventions : List Intervention := []

/-- Whether it was killed and waited for. -/
def Start.stopped (start : Start) : Bool := start.interventions = Intervention.stopping

structure Shell where
  settings : Settings := {}
  /-- What the processes to come lead to. -/
  fates : List Fate := []
  /-- The processes started so far, in order. -/
  started : List Start := []

namespace Shell

/-- Whether the limit gives a process any time.  One that is not positive, or no number, is up at once. -/
def givesTime (settings : Settings) : Bool := 0.0 < settings.timeout

/-- Whether the limit is infinite. -/
def isUnlimited (settings : Settings) : Bool := settings.timeout == Binary64.infinity false

def missingText (executable : Json) : Text :=
  "Could not find '".toList ++ executable.display.narrow ++ "' executable.".toList

def timeoutText (settings : Settings) : Text :=
  "Timed out after ".toList ++ FloatStyle.plain.write settings.timeout ++ " seconds.".toList

/-- A process whose time limit is up is stopped. -/
def timedOut (settings : Settings) (command : Text) : Except Fault Outcome × List Intervention :=
  (.ok (.finished { exitCode := -1, stderr := timeoutText settings, command }), Intervention.stopping)

/-- What one process leads to, and what is done to it. -/
def conclude (settings : Settings) (executable : Json) (command : Text) (fate : Fate) :
    Except Fault Outcome × List Intervention :=
  match fate with
  | .missing => (.ok (.finished { exitCode := -1, stderr := missingText executable, command }), [])
  | .refused reason => (.ok (.refused reason), [])
  | .runs exitCode stdout stderr =>
    if givesTime settings then
      (.ok (.finished
        { exitCode, stdout := Utf8.decode stdout, stderr := Utf8.decode stderr, command }), [])
    else timedOut settings command
  | .outlasts => timedOut settings command
  | .hangs => if isUnlimited settings then (.error .endless, []) else timedOut settings command

/-- Starts the executable for the mode.  The command is put together first, so arguments that make
no command start nothing; neither do those that make one but are not all texts. -/
def invoke (mode : Mode) (arguments : List Json) (directory : Text) : Attempt Shell Outcome := do
  let shell ← get
  let executable := shell.settings.executable mode
  let all := executable :: arguments
  let command ← Command.shellLine all
  let _ ← Command.texts? all
  let (fate, fates) := nextAnswer (.runs 0 [] []) shell.fates
  let (outcome, interventions) := conclude shell.settings executable command fate
  modify fun shell =>
    { shell with fates, started := shell.started ++ [⟨all, directory, interventions⟩] }
  outcome

end Shell

instance : Compiler Shell := ⟨Shell.invoke⟩

/-! ## Scripts -/

/-- A call of the compiler. -/
structure Call where
  mode : Mode
  arguments : List Json
  directory : Text

structure Script where
  answers : List Outcome := []
  /-- The calls made so far, in order. -/
  calls : List Call := []

namespace Script

def invoke (mode : Mode) (arguments : List Json) (directory : Text) : Attempt Script Outcome := do
  let script ← get
  let (answer, answers) := nextAnswer (.finished {}) script.answers
  modify fun script =>
    { script with answers, calls := script.calls ++ [⟨mode, arguments, directory⟩] }
  return answer

end Script

instance : Compiler Script := ⟨Script.invoke⟩

end JsonnetLens
