import JsonnetLens.Settings.Basic
import JsonnetLens.Fault
/-!
# Settings from an editor's configuration

A configuration section is a JSON value.  An absent or null field keeps its default; external
variables, library directories and the time limit are converted, and the conversions that fail do so
in that order.
-/
namespace JsonnetLens.Settings

/-- A field that is there and not null. -/
def given? (fields : Table WideText Json) (name : String) : Option Json :=
  match Table.get? (WideText.ofText name.toList) fields with
  | some .null => none
  | other => other

def readExtStrs : Json → Except Fault (Table WideText WideText)
  | .object fields => .ok (fields.map fun (name, value) => (name, value.display))
  | _ => .error .noFields

/-- A list of paths; a string counts as the list of its characters, an object as that of its
names. -/
def readLibPaths : Json → Except Fault (List WideText)
  | .array items => .ok (items.map Json.display)
  | .string s => .ok (s.map ([·]))
  | .object fields => .ok (Table.keys fields)
  | _ => .error .wrongKind

def readTimeout : Json → Except Fault Float
  | .bool b => .ok (if b then 1.0 else 0.0)
  | .int i =>
    match Binary64.ofInt? i with
    | some x => .ok x
    | none => .error .beyondDouble
  | .float x => .ok x
  | .string s =>
    match readFloat? s.narrow with
    | some x => .ok x
    | none => .error (.notANumber s)
  | _ => .error .wrongKind

def readOutputFormat : Json → OutputFormat
  | .string s => .ofName s.narrow
  | _ => .yaml

/-- A field converted, or the default when it is not given. -/
def readOr {α : Type} (default : α) (read : Json → Except Fault α) : Option Json → Except Fault α
  | none => .ok default
  | some value => read value

def ofFields (fields : Table WideText Json) : Except Fault Settings := do
  let plain : Settings := {}
  let extStrs ← readOr plain.extStrs readExtStrs (given? fields "extStrs")
  let libPaths ← readOr plain.libPaths readLibPaths (given? fields "libPaths")
  let timeout ← readOr plain.timeout readTimeout (given? fields "timeout")
  return {
    jsonnetExecutable := (given? fields "executablePath").getD plain.jsonnetExecutable
    ksExecutable := (given? fields "ksPath").getD plain.ksExecutable
    extStrs, libPaths
    outputFormat := ((given? fields "outputFormat").map readOutputFormat).getD plain.outputFormat
    environment := (given? fields "environment").getD plain.environment
    timeout }

/-- The settings of a configuration section. -/
def ofConfig (section' : Json) : Except Fault Settings :=
  if section'.isVoid then .ok {}
  else
    match section' with
    | .object fields => ofFields fields
    | _ => .error .noFields

end JsonnetLens.Settings
