import JsonnetLens.Compiler.Run
import JsonnetLens.Workspace.Application
import JsonnetLens.Emitter
import JsonnetLens.Table
/-!
# The cache of previews

A cache holds for each document the outcome of its latest compilation, until it is dropped.  A
preview is generated in two halves, so that several can be under way: `start` looks into the cache
and calls the compiler, `settle` stores the result and tells the watchers.
-/
namespace JsonnetLens

structure Document where
  uri : Text
  path : Text
  deriving DecidableEq, Repr

/-- The text of a failed compilation; files that it names are seen from the directory. -/
structure Failure where
  error : Text
  directory : Option Text
  deriving DecidableEq, Repr

/-- The outcome of a compilation. -/
inductive Entry where
  | output (text : Text)
  | failed (failure : Failure)
  deriving DecidableEq, Repr

/-- The text to show; a failed compilation has none. -/
def Entry.content : Entry → Text
  | output text => text
  | failed _ => []

structure PreviewCache (ι : Type) where
  compiler : ι
  settings : Settings := {}
  entries : Table Text Entry := []
  /-- Those who are told that a document has a new entry. -/
  watchers : Emitter Text := {}
  /-- What the watchers have been told: the watcher and the document, in order. -/
  notices : List (Text × Text) := []

/-- A compilation whose result has not been stored. -/
structure Pending where
  uri : Text
  directory : Text
  arguments : List Json
  outcome : Outcome

/-- The result of a compilation; for one that was refused the reason stands for the errors. -/
def Pending.result (compilation : Pending) : Except Fault Result :=
  match compilation.outcome with
  | .finished result => .ok result
  | .refused reason => do
    return { exitCode := -1, stderr := reason, command := ← Command.plainLine compilation.arguments }

/-- What the first half of a preview comes to. -/
inductive Ticket where
  | ready (content : Text)
  | pending (compilation : Pending)

namespace PreviewCache

variable {ι : Type}

def get? (cache : PreviewCache ι) (document : Document) : Option Entry :=
  cache.entries.get? document.uri

def contains (cache : PreviewCache ι) (document : Document) : Bool :=
  cache.entries.contains document.uri

def size (cache : PreviewCache ι) : Nat := cache.entries.length

def delete (document : Document) (cache : PreviewCache ι) : PreviewCache ι :=
  { cache with entries := cache.entries.erase document.uri }

def close (cache : PreviewCache ι) : PreviewCache ι :=
  { cache with entries := [], watchers := cache.watchers.clear }

def watch (watcher : Text) (cache : PreviewCache ι) : PreviewCache ι :=
  { cache with watchers := cache.watchers.subscribe watcher }

/-! ## The two halves -/

/-- How a document is compiled: as a component in the root of its application, or on its own in its
directory. -/
def plan (settings : Settings) (tree : FileTree) (document : Document) :
    Except Fault (Mode × List Json × Text) :=
  match Application.root? tree document.path settings.marker with
  | some root => do
    let component ← Application.componentName root document.path
    return (.application, applicationArguments settings.environment component, root)
  | none =>
    .ok (.standalone, settings.standaloneArguments document.path,
      (Path.ofText document.path).parent.toText)

/-- A watcher only takes notice. -/
def takeNotice (_watcher : Text) : Attempt (Emitter Text) Unit := pure ()

/-- Stores an entry and tells the watchers. -/
def store (uri : Text) (entry : Entry) (cache : PreviewCache ι) : PreviewCache ι :=
  let (told, watchers) := cache.watchers.notify takeNotice
  { cache with
    entries := cache.entries.insert uri entry
    watchers
    notices := cache.notices ++ told.map fun watcher => (watcher, uri) }

section
variable [Compiler ι]

def callCompiler (mode : Mode) (arguments : List Json) (directory : Text) :
    Attempt (PreviewCache ι) Outcome :=
  Attempt.onPart PreviewCache.compiler (fun compiler cache => { cache with compiler })
    (Compiler.invoke mode arguments directory)

/-- Looks into the cache and calls the compiler if nothing is there. -/
def start (tree : FileTree) (document : Document) : Attempt (PreviewCache ι) Ticket := do
  let cache ← get
  match cache.get? document with
  | some entry => return .ready entry.content
  | none =>
    let (mode, arguments, directory) ← (plan cache.settings tree document : Except Fault _)
    let outcome ← callCompiler mode arguments directory
    return .pending { uri := document.uri, directory, arguments, outcome }

end

/-- The first line of a failed compilation names the command. -/
def banner (command : Text) : Text := "Command failed: ".toList ++ command

def entryOf (result : Result) (directory : Text) : Entry :=
  if result.exitCode = 0 then .output result.stdout
  else .failed ⟨banner result.command ++ '\n' :: result.stderr, some directory⟩

/-- Stores what a compilation came to. -/
def settle (compilation : Pending) : Attempt (PreviewCache ι) Text := do
  let result ← (compilation.result : Except Fault _)
  let entry := entryOf result compilation.directory
  modify (store compilation.uri entry)
  return entry.content

/-- The content of a document once its compilation is settled. -/
def redeem : Ticket → Attempt (PreviewCache ι) Text
  | .ready content => pure content
  | .pending compilation => settle compilation

def generate [Compiler ι] (tree : FileTree) (document : Document) : Attempt (PreviewCache ι) Text := do
  redeem (← start tree document)

/-! ## Several previews at once -/

/-- Performs every computation in order, also after a failed one, and answers all outcomes. -/
def performAll {σ α : Type} : List (Attempt σ α) → StateM σ (List (Except Fault α))
  | [] => pure []
  | x :: rest => do
    let answer ← ExceptT.run x
    return answer :: (← performAll rest)

/-- The answers if there is no fault among them, or else the first fault. -/
def collect {α : Type} : List (Except Fault α) → Except Fault (List α)
  | [] => .ok []
  | .error fault :: _ => .error fault
  | .ok answer :: rest => (collect rest).map (answer :: ·)

/-- Starts all previews in order, then settles them in order.  One that fails does not stop the
others; a fault in a first half comes before any in a second half. -/
def gather [Compiler ι] (tree : FileTree) (documents : List Document) :
    Attempt (PreviewCache ι) (List Text) :=
  ExceptT.mk do
    let tickets ← performAll (documents.map (start tree))
    let contents ← performAll (tickets.filterMap fun ticket => (ticket.map redeem).toOption)
    return (collect tickets).bind fun _ => collect contents

end PreviewCache
end JsonnetLens
