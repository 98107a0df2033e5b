import JsonnetLens.Json.Basic
import JsonnetLens.Text.Quoted
import JsonnetLens.Number.FloatText
/-!
# Values in messages

A value on one line: a string alone stands as it is, inside an array or object it is quoted.
-/
namespace JsonnetLens.Json

mutual

/-- The value with its strings quoted. -/
def quoted : Json → Text
  | .null => "None".toList
  | .bool b => if b then "True".toList else "False".toList
  | .int i => Text.ofInt i
  | .float x => FloatStyle.plain.write x
  | .string s => Quoted.quote s
  | .array [] => "[]".toList
  | .array (x :: xs) => '[' :: quoted x ++ quotedItems xs ++ [']']
  | .object [] => ['\x7b', '\x7d']
  | .object ((name, x) :: fields) =>
    '\x7b' :: Quoted.quote name ++ ": ".toList ++ quoted x ++ quotedFields fields ++ ['\x7d']

def quotedItems : List Json → Text
  | [] => []
  | x :: xs => ", ".toList ++ quoted x ++ quotedItems xs

def quotedFields : List (WideText × Json) → Text
  | [] => []
  | (name, x) :: fields =>
    ", ".toList ++ Quoted.quote name ++ ": ".toList ++ quoted x ++ quotedFields fields

end

def display : Json → WideText
  | .string s => s
  | v => WideText.ofText (quoted v)

end JsonnetLens.Json
