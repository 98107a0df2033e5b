import JsonnetLens.Json.Basic
/-!
# Fields of JSON objects

Reading the fields of an object whose form is known: a field that is missing, or is of another kind
than expected, reads as absent.
-/
namespace JsonnetLens.Json

def field? (name : String) : Json → Option Json
  | object fields => Table.get? (WideText.ofText name.toList) fields
  | _ => none

def toText? : Json → Option Text
  | string s => some s.narrow
  | _ => none

def toInt? : Json → Option Int
  | int i => some i
  | _ => none

/-- The items of an array; nothing else has any. -/
def items : Json → List Json
  | array xs => xs
  | _ => []

/-- The fields of an object whose values are texts. -/
def textTable : Json → Table Text Text
  | object fields => fields.filterMap fun (name, value) => value.toText?.map fun t => (name.narrow, t)
  | _ => []

def textField? (name : String) (j : Json) : Option Text := (j.field? name).bind toText?

def textField (name : String) (j : Json) : Text := (j.textField? name).getD []

def intField (name : String) (j : Json) : Int := ((j.field? name).bind toInt?).getD 0

/-- Whether a field is there and true. -/
def isMarked (name : String) (j : Json) : Bool :=
  match j.field? name with
  | some (bool b) => b
  | _ => false

def itemsField (name : String) (j : Json) : List Json := ((j.field? name).map items).getD []

def textsField (name : String) (j : Json) : List Text := (j.itemsField name).filterMap toText?

end JsonnetLens.Json
