import JsonnetLens.Json.Basic
import JsonnetLens.Number.FloatText
import JsonnetLens.Text.Hex
/-!
# JSON as text

`Json.indented` writes a value over several lines with four spaces for each level.  All of it is
ASCII: every other character is written as one escape, or as the two escapes of a surrogate pair.
-/
namespace JsonnetLens.Json

/-- Not-a-number and the infinities have names that are not part of the standard. -/
def floatStyle : FloatStyle :=
  { notANumber := "NaN".toList, infinity := "Infinity".toList
    negativeInfinity := "-Infinity".toList, loneDigit := [] }

def unicodeEscape (n : Nat) : Text := '\\' :: 'u' :: Hex.lower 4 n

def escapePoint (p : CodePoint) : Text :=
  if p.val = 0x22 then ['\\', '"']
  else if p.val = 0x5C then ['\\', '\\']
  else if p.val = 0x0A then ['\\', 'n']
  else if p.val = 0x0D then ['\\', 'r']
  else if p.val = 0x09 then ['\\', 't']
  else if p.val = 0x0C then ['\\', 'f']
  else if p.val = 0x08 then ['\\', 'b']
  else if 0x20 ≤ p.val ∧ p.val < 0x7F then [Char.ofNat p.val]
  else if p.val < 0x10000 then unicodeEscape p.val
  else
    unicodeEscape (0xD800 + (p.val - 0x10000) / 0x400) ++
      unicodeEscape (0xDC00 + (p.val - 0x10000) % 0x400)

def quoteString (s : WideText) : Text := '"' :: s.flatMap escapePoint ++ ['"']

def newLine (depth : Nat) : Text := '\n' :: Text.spaces (4 * depth)

mutual

/-- The value as it stands at the given depth. -/
def indentedAt (depth : Nat) : Json → Text
  | .null => "null".toList
  | .bool b => if b then "true".toList else "false".toList
  | .int i => Text.ofInt i
  | .float x => floatStyle.write x
  | .string s => quoteString s
  | .array [] => "[]".toList
  | .array (x :: xs) =>
    '[' :: newLine (depth + 1) ++ indentedAt (depth + 1) x ++ moreItems (depth + 1) xs ++
      newLine depth ++ [']']
  | .object [] => ['\x7b', '\x7d']
  | .object ((name, x) :: fields) =>
    '\x7b' :: newLine (depth + 1) ++ quoteString name ++ ": ".toList ++ indentedAt (depth + 1) x ++
      moreFields (depth + 1) fields ++ newLine depth ++ ['\x7d']

/-- The items after the first one, each after a comma. -/
def moreItems (depth : Nat) : List Json → Text
  | [] => []
  | x :: xs => ',' :: newLine depth ++ indentedAt depth x ++ moreItems depth xs

def moreFields (depth : Nat) : List (WideText × Json) → Text
  | [] => []
  | (name, x) :: fields =>
    ',' :: newLine depth ++ quoteString name ++ ": ".toList ++ indentedAt depth x ++
      moreFields depth fields

end

def indented (value : Json) : Text := indentedAt 0 value

end JsonnetLens.Json
