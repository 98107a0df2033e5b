import JsonnetLens.Json.Display
/-!
# Settings

What a user can choose: the compiler executables, what is passed to the compiler, the format of the
output and the time limit.  The executables and the environment are kept as they were configured,
whatever kind of value that is.
-/
namespace JsonnetLens

inductive OutputFormat where
  | json
  | yaml
  deriving DecidableEq, Repr

namespace OutputFormat

def name : OutputFormat → Text
  | json => "json".toList
  | yaml => "yaml".toList

/-- The format of this name; any other name means YAML. -/
def ofName (t : Text) : OutputFormat := if t = json.name then json else yaml

end OutputFormat

structure Settings where
  jsonnetExecutable : Json := .ofText "jsonnet".toList
  ksExecutable : Json := .ofText "ks".toList
  /-- External variables by name. -/
  extStrs : Table WideText WideText := []
  /-- Library directories, the first one searched first. -/
  libPaths : List WideText := []
  outputFormat : OutputFormat := .yaml
  /-- The environment of an application whose components are shown. -/
  environment : Json := .ofText "default".toList
  /-- The file that marks the root of an application. -/
  marker : Text := "app.yaml".toList
  /-- The time limit in seconds. -/
  timeout : Float := 30.0

namespace Settings

def displayPairs : Table WideText WideText → Json
  | table => .object (table.map fun (name, value) => (name, .string value))

/-- All settings on one line. -/
def display (s : Settings) : Text :=
  "Settings(jsonnet_executable=".toList ++ s.jsonnetExecutable.quoted ++
    ", ks_executable=".toList ++ s.ksExecutable.quoted ++
    ", ext_strs=".toList ++ (displayPairs s.extStrs).quoted ++
    ", lib_paths=".toList ++ (Json.array (s.libPaths.map Json.string)).quoted ++
    ", output_format=".toList ++ (Json.ofText s.outputFormat.name).quoted ++
    ", environment=".toList ++ s.environment.quoted ++
    ", marker=".toList ++ (Json.ofText s.marker).quoted ++
    ", timeout=".toList ++ FloatStyle.plain.write s.timeout ++ [')']

end Settings
end JsonnetLens
