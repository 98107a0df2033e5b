import JsonnetLens.CommandLine.Terminal
import JsonnetLens.CommandLine.Usage
import JsonnetLens.Preview.Page
import JsonnetLens.Diagnostic.Reporter
import JsonnetLens.Settings.Environment
/-!
# The program

Both commands compile the file that they are given and exit with 0 when that succeeds.  `check`
prints one line for each located error, or the whole error text when nothing is located; `preview`
prints the output in the wanted format, as a page, or as it is when it is no JSON.
-/
namespace JsonnetLens.CommandLine

/-- What a run of the program leaves behind. -/
structure Run where
  exitCode : Nat
  stdout : Text := []
  stderr : Text := []
  /-- The processes that it started. -/
  started : List Start := []

/-- The outside world of a run. -/
structure World where
  tree : FileTree := {}
  environ : Environ := []
  fates : List Fate := []

inductive Command where
  | check
  | preview
  deriving DecidableEq, Repr

namespace Command

def name : Command → Text
  | check => "check".toList
  | preview => "preview".toList

def grammar : Command → Grammar
  | check => checkGrammar
  | preview => previewGrammar

end Command

def commands : List Command := [.check, .preview]

/-- What a command line asks for. -/
structure Request where
  command : Command
  path : Text
  env : Option Text := none
  output : Option OutputFormat := none
  html : Bool := false
  quiet : Bool := false
  deriving DecidableEq, Repr

/-! ## Reading the command line -/

def hasOption (r : Grammar.Reading) (spec : OptionSpec) : Bool := r.options.any fun o => o.1 = spec

/-- The value of an option; of several the last counts, also when it is without a value. -/
def valueOf? (r : Grammar.Reading) (spec : OptionSpec) : Option Text :=
  (r.options.reverse.find? fun o => o.1 = spec).bind Prod.snd

def requestOf (command : Command) (operand : List Text) (r : Grammar.Reading) : Request :=
  { command
    path := operand.headD []
    env := (valueOf? r envOption).filter (!·.isEmpty)
    output := (valueOf? r outputOption).map OutputFormat.ofName
    html := hasOption r htmlOption
    quiet := hasOption r quietOption }

def usageError (g : Grammar) (message : Text) : Run :=
  { exitCode := 2, stderr := g.usage ++ g.program ++ ": error: ".toList ++ message ++ ['\n'] }

def stopped (g : Grammar) : Grammar.Stop → Run
  | .help => { exitCode := 0, stdout := g.help }
  | .failure message => usageError g message

def unrecognized (leftOver : List Text) : Text :=
  "unrecognized arguments: ".toList ++ Text.join [' '] leftOver

/-- The command that a name stands for, with what is asked of it. -/
def readCommand (leftOver : List Text) (name : Text) (arguments : List Text) :
    Except Run Request :=
  match commands.find? fun c => c.name = name with
  | none =>
    .error (usageError mainGrammar
      (Grammar.badChoice mainGrammar.operand name (commands.map Command.name)))
  | some command =>
    match command.grammar.read arguments with
    | .error stop => .error (stopped command.grammar stop)
    | .ok (operand, r) =>
      let leftOver := leftOver ++ r.leftOver
      if leftOver.isEmpty then .ok (requestOf command operand r)
      else .error (usageError mainGrammar (unrecognized leftOver))

/-- What the arguments ask for, or the run that ends right there. -/
def readArguments (arguments : List Text) : Except Run Request :=
  match mainGrammar.read arguments with
  | .error stop => .error (stopped mainGrammar stop)
  | .ok (operand, r) =>
    match operand with
    | name :: rest => readCommand r.leftOver name rest
    | [] => readCommand r.leftOver [] []

/-! ## Running a request -/

/-- The settings of the environment with those of the command line on top. -/
def settingsFor [Nesting] (request : Request) (environ : Environ) : Except Fault Settings := do
  let settings ← Settings.withEnviron {} environ
  return { settings with
    outputFormat := request.output.getD settings.outputFormat
    environment := (request.env.map Json.ofText).getD settings.environment }

/-- The document at a path, seen from the current directory. -/
def documentAt (tree : FileTree) (path : Text) : Except Fault Document :=
  let path := (tree.absolute (Path.ofText path)).toText
  match FileUri.ofPath? path with
  | .ok uri => .ok { uri, path }
  | .error fault => .error (.badHost fault)

/-- What the output is made from: the entry, and the settings. -/
structure Compiled where
  document : Document
  settings : Settings
  entry : Option Entry
  started : List Start

def compile [Nesting] (world : World) (request : Request) : Except Fault Compiled := do
  let document ← documentAt world.tree request.path
  let settings ← settingsFor request world.environ
  let cache : PreviewCache Shell :=
    { compiler := { settings, fates := world.fates }, settings }
  let (answer, cache) := (PreviewCache.generate world.tree document).perform cache
  let _ ← answer
  return { document, settings, entry := cache.get? document, started := cache.compiler.started }

/-- The lines for a failed compilation, or its whole text when nothing is located. -/
def failureLines (document : Document) (failure : Failure) : Except Fault (List Text) := do
  let reporter : Reporter (WatchedCollection Text) := { sink := {} }
  let (answer, _) :=
    (Reporter.report document.uri failure.error failure.directory).perform reporter
  let batch ← answer
  return if batch.lines.isEmpty then [failure.error] else batch.lines

def check (request : Request) (c : Compiled) : Except Fault Run :=
  match c.entry with
  | some (.failed failure) => do
    let lines ← failureLines c.document failure
    return { exitCode := 1, stdout := lines.flatMap Terminal.display, started := c.started }
  | _ =>
    let verdict := c.document.path ++ ": OK".toList
    .ok { exitCode := 0, stdout := if request.quiet then [] else Terminal.display verdict
          started := c.started }

/-- The output of a successful compilation with its line break. -/
def outputText [Nesting] (text : Text) (format : OutputFormat) : Except Fault Text :=
  (Page.formatOrKeep text format).map (· ++ ['\n'])

def preview [Nesting] (request : Request) (c : Compiled) : Except Fault Run := do
  let failed := match c.entry with
    | some (.failed _) => true
    | _ => false
  let stdout ←
    if request.html then
      (Page.render c.entry c.settings.outputFormat).map (· ++ ['\n'])
    else
      match c.entry with
      | some (.failed failure) => .ok (Terminal.display failure.error)
      | some (.output text) => outputText text c.settings.outputFormat
      | none => .ok []
  return { exitCode := if failed then 1 else 0, stdout, started := c.started }

def absent (path : Text) : Run :=
  { exitCode := 1
    stderr := "Error: Path '".toList ++ (Path.ofText path).toText ++ "' does not exist\n".toList }

def runRequest [Nesting] (world : World) (request : Request) : Except Fault Run :=
  if world.tree.hasPath (Path.ofText request.path) then do
    let compiled ← compile world request
    match request.command with
    | .check => check request compiled
    | .preview => preview request compiled
  else .ok (absent request.path)

/-- Runs the program. -/
def run [Nesting] (world : World) (arguments : List Text) : Except Fault Run := do
  let done ←
    match readArguments arguments with
    | .error done => .ok done
    | .ok request => runRequest world request
  return { done with stdout := Terminal.trimLines done.stdout }

end JsonnetLens.CommandLine
