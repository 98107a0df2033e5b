import JsonnetLens.Settings.Basic
import JsonnetLens.Text.ShellWord
import JsonnetLens.Fault
/-!
# Compiler commands

A single file is compiled by `jsonnet`; a component of an application is shown by `ks` in the root
of the application.  Arguments are values as configured, so one of them may be no string, and then
no command line can be built from them; one that says nothing makes a word of a shell command, but
cannot be given to a process.
-/
namespace JsonnetLens

inductive Mode where
  /-- A component of an application, by its name. -/
  | application
  /-- A file on its own. -/
  | standalone
  deriving DecidableEq, Repr

def Mode.name : Mode → Text
  | .application => "application".toList
  | .standalone => "standalone".toList

namespace Settings

def executable (s : Settings) : Mode → Json
  | .application => s.ksExecutable
  | .standalone => s.jsonnetExecutable

def libPathArguments (s : Settings) : List Json :=
  s.libPaths.flatMap fun path => [.ofText "-J".toList, .string path]

def extStrArguments (s : Settings) : List Json :=
  s.extStrs.flatMap fun (name, value) =>
    [.ofText "--ext-str".toList, .string (name ++ WideText.ofText ['='] ++ value)]

/-- The arguments that compile one file. -/
def standaloneArguments (s : Settings) (source : Text) : List Json :=
  s.libPathArguments ++ s.extStrArguments ++ [.ofText source]

end Settings

/-- The arguments that show one component. -/
def applicationArguments (environment : Json) (component : Text) : List Json :=
  [.ofText "show".toList, environment, .ofText "-c".toList, .ofText component,
    .ofText "-o".toList, .ofText "json".toList]

namespace Command

/-- An argument as a word of a shell command; a value that says nothing is an empty word. -/
def word? : Json → Except Fault Text
  | .string s => .ok (ShellWord.quote s.narrow)
  | v => if Json.isVoid v then .ok (ShellWord.quote []) else .error .wrongKind

/-- The arguments as one shell command. -/
def shellLine (arguments : List Json) : Except Fault Text := do
  let words ← arguments.mapM word?
  return Text.join [' '] words

def text? : Json → Except Fault Text
  | .string s => .ok s.narrow
  | _ => .error .wrongKind

/-- The arguments as a process is given them. -/
def texts? (arguments : List Json) : Except Fault (List Text) := arguments.mapM text?

/-- The arguments with blanks between them, as they are. -/
def plainLine (arguments : List Json) : Except Fault Text := do
  let words ← texts? arguments
  return Text.join [' '] words

end Command
end JsonnetLens
