import JsonnetLens.Settings.Config
/-!
# Overrides by environment variables

A variable `KSONNET_TOOLING_…` that is set and not empty overrides one setting.  External variables
that are no JSON object and a time limit that is no number are ignored.
-/
namespace JsonnetLens

/-- Environment variables by name. -/
abbrev Environ := Table Text Text

namespace Environ

def variablePrefix : Text := "KSONNET_TOOLING_".toList

/-- The value of an override, unless it is empty. -/
def override? (environ : Environ) (name : String) : Option Text :=
  (environ.get? (variablePrefix ++ name.toList)).filter (!·.isEmpty)

/-- The external variables that a text gives: `none` when it is to be ignored. -/
def readExtStrs? [Nesting] (t : Text) : Except Fault (Option (Table WideText WideText)) :=
  match Json.read t with
  | .ok (.object fields) => .ok (some (fields.map fun (name, value) => (name, value.display)))
  | .ok _ => .ok none
  | .error (.badSyntax _) => .ok none
  | .error (.beyond limit) => .error (.ofLimit limit)

/-- Directories with colons between them; empty ones do not count. -/
def readLibPaths (t : Text) : List WideText :=
  ((t.splitOn ':').filter (!·.isEmpty)).map WideText.ofText

end Environ

/-- The settings with the overrides of an environment. -/
def Settings.withEnviron [Nesting] (s : Settings) (environ : Environ) : Except Fault Settings := do
  let extStrs ←
    match environ.override? "EXT_STRS" with
    | none => .ok none
    | some t => Environ.readExtStrs? t
  return {
    jsonnetExecutable :=
      ((environ.override? "JSONNET_EXECUTABLE").map Json.ofText).getD s.jsonnetExecutable
    ksExecutable := ((environ.override? "KS_EXECUTABLE").map Json.ofText).getD s.ksExecutable
    extStrs := extStrs.getD s.extStrs
    libPaths := ((environ.override? "LIB_PATHS").map Environ.readLibPaths).getD s.libPaths
    outputFormat :=
      ((environ.override? "OUTPUT_FORMAT").map OutputFormat.ofName).getD s.outputFormat
    environment := ((environ.override? "ENVIRONMENT").map Json.ofText).getD s.environment
    marker := (environ.override? "MARKER").getD s.marker
    timeout := ((environ.override? "TIMEOUT").bind readFloat?).getD s.timeout }

end JsonnetLens
