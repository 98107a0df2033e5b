import JsonnetLens.Text.CodePoint
import JsonnetLens.Table
/-!
# JSON values

Strings are sequences of code points, because an escape can name half of a surrogate pair.  An
object is a table of fields, in the order in which their names first appear.
-/
namespace JsonnetLens

inductive Json where
  | null
  | bool (b : Bool)
  | int (i : Int)
  | float (x : Float)
  | string (s : WideText)
  | array (items : List Json)
  | object (fields : List (WideText × Json))
  deriving Inhabited

namespace Json

/-- Whether a value says nothing at all. -/
def isVoid : Json → Bool
  | .null => true
  | .bool b => !b
  | .int i => i = 0
  | .float x => x == 0.0
  | .string s => s.isEmpty
  | .array items => items.isEmpty
  | .object fields => fields.isEmpty

def ofText (t : Text) : Json := .string (WideText.ofText t)

end Json
end JsonnetLens
