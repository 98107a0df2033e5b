import JsonnetLens.CommandLine.Grammar
/-!
# The grammars of the commands

The program has two commands: `check` reports located errors, `preview` prints compiled output.
-/
namespace JsonnetLens.CommandLine

def program : Text := "ksonnet-tooling".toList

def helpOption : OptionSpec := ⟨["-h".toList, "--help".toList], .help⟩

def envOption : OptionSpec := ⟨["--env".toList], .value []⟩

def verboseOption : OptionSpec := ⟨["--verbose".toList, "-v".toList], .flag⟩

def quietOption : OptionSpec := ⟨["--quiet".toList, "-q".toList], .flag⟩

def outputOption : OptionSpec :=
  ⟨["--output".toList, "-o".toList], .value ["json".toList, "yaml".toList]⟩

def htmlOption : OptionSpec := ⟨["--html".toList], .flag⟩

def lines (ls : List String) : Text := ls.flatMap fun l => l.toList ++ ['\n']

/-! ## The program -/

def mainUsage : Text := lines ["usage: ksonnet-tooling [-h] \x7bcheck,preview\x7d ..."]

def mainHelp : Text :=
  mainUsage ++ lines [
    "",
    "positional arguments:",
    "  \x7bcheck,preview\x7d",
    "    check          Compile a Jsonnet file and report errors with their",
    "                   locations",
    "    preview        Print the compiled output of a Jsonnet file",
    "",
    "options:",
    "  -h, --help       show this help message and exit"]

def mainGrammar : Grammar :=
  { program, usage := mainUsage, help := mainHelp, options := [helpOption]
    operand := "command".toList, takesRest := true }

/-! ## The commands -/

def checkUsage : Text :=
  lines ["usage: ksonnet-tooling check [-h] [--env ENV] [--verbose] [--quiet] path"]

def checkHelp : Text :=
  checkUsage ++ lines [
    "",
    "Compile a Jsonnet file and report errors with their locations",
    "",
    "positional arguments:",
    "  path           Path to the Jsonnet file or ksonnet component",
    "",
    "options:",
    "  -h, --help     show this help message and exit",
    "  --env ENV      ksonnet environment used for application components",
    "  --verbose, -v  Enable verbose logging for debugging",
    "  --quiet, -q    Only output errors",
    "",
    "Examples:",
    "  ksonnet-tooling check main.jsonnet                  # Standalone file",
    "  ksonnet-tooling check app/components/redis.jsonnet  # ksonnet component",
    ""]

def checkGrammar : Grammar :=
  { program := program ++ " check".toList, usage := checkUsage, help := checkHelp
    options := [helpOption, envOption, verboseOption, quietOption]
    operand := "path".toList, takesRest := false }

def previewUsage : Text :=
  lines [
    "usage: ksonnet-tooling preview [-h] [--env ENV] [--verbose]",
    "                               [--output \x7bjson,yaml\x7d] [--html]",
    "                               path"]

def previewHelp : Text :=
  previewUsage ++ lines [
    "",
    "Print the compiled output of a Jsonnet file",
    "",
    "positional arguments:",
    "  path                  Path to the Jsonnet file or ksonnet component",
    "",
    "options:",
    "  -h, --help            show this help message and exit",
    "  --env ENV             ksonnet environment used for application components",
    "  --verbose, -v         Enable verbose logging for debugging",
    "  --output \x7bjson,yaml\x7d, -o \x7bjson,yaml\x7d",
    "                        Output serialization (defaults to the configured",
    "                        format)",
    "  --html                Print the HTML preview document instead"]

def previewGrammar : Grammar :=
  { program := program ++ " preview".toList, usage := previewUsage, help := previewHelp
    options := [helpOption, envOption, verboseOption, outputOption, htmlOption]
    operand := "path".toList, takesRest := false }

end JsonnetLens.CommandLine
