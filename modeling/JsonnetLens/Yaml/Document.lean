import JsonnetLens.Yaml.Scalar
import JsonnetLens.Json.Basic
import JsonnetLens.Number.FloatText
/-!
# YAML documents

A JSON value as a block document.  Entries and items stand on lines of their own; a collection that
follows a dash, or a long name, begins on the same line, and a list that follows a short name is not
indented further than the name.
-/
namespace JsonnetLens.Yaml

/-- YAML 1.1 wants a point in every number with an exponent. -/
def floatStyle : FloatStyle :=
  { notANumber := ".nan".toList, infinity := ".inf".toList, negativeInfinity := "-.inf".toList
    loneDigit := ".0".toList }

/-- A value that is neither an array nor an object with something in it. -/
def leaf? (m : Margin) (column : Nat) : Json → Option Text
  | .null => some "null".toList
  | .bool b => some (if b then "true".toList else "false".toList)
  | .int i => some (Text.ofInt i)
  | .float x => some (floatStyle.write x)
  | .string s => some (writeString m column s)
  | .array [] => some "[]".toList
  | .object [] => some ['\x7b', '\x7d']
  | .array (_ :: _) => none
  | .object (_ :: _) => none

/-- A name is short when it is not empty, lies on one line and has at most 122 characters. -/
def isShortName (name : WideText) : Bool :=
  !name.isEmpty && name.length ≤ 122 &&
    !name.any fun p => p.val = 0x0A || p.val = 0x85 || p.val = 0x2028 || p.val = 0x2029

def newLine (indent : Nat) : Text := '\n' :: Text.spaces indent

/-- Where a value is written. -/
inductive Place where
  /-- At the beginning of the document. -/
  | start
  /-- After a dash, a question mark or the colon of a long name in column `indent`. -/
  | afterMark (indent : Nat)
  /-- After the colon of a short name that begins in column `indent`; the colon ends before
  `column`. -/
  | afterName (indent column : Nat)

namespace Place

/-- The column of the dashes of an array. -/
def arrayIndent : Place → Nat
  | start => 0
  | afterMark indent => indent + 2
  | afterName indent _ => indent

/-- The column of the names of an object. -/
def objectIndent : Place → Nat
  | start => 0
  | afterMark indent => indent + 2
  | afterName indent _ => indent + 2

/-- What leads to the first line of a collection whose lines begin in column `indent`. -/
def lead (indent : Nat) : Place → Text
  | start => []
  | afterMark _ => [' ']
  | afterName _ _ => newLine indent

def writeLeaf (value : Json) : Place → Text
  | start => (leaf? ⟨2, true⟩ 0 value).getD []
  | afterMark indent => ' ' :: (leaf? ⟨indent + 2, true⟩ (indent + 2) value).getD []
  | afterName indent column => ' ' :: (leaf? ⟨indent + 2, true⟩ (column + 1) value).getD []

end Place

/-- A name in column `indent` with its colon, and the place of its value. -/
def writeName (indent : Nat) (name : WideText) : Text × Place :=
  if isShortName name then
    let text := writeString ⟨indent + 2, false⟩ indent name
    (text ++ [':'], .afterName indent (indent + text.length + 1))
  else
    ("? ".toList ++ writeString ⟨indent + 2, true⟩ (indent + 2) name ++ newLine indent ++ [':'],
      .afterMark indent)

mutual

def writeAt (place : Place) : Json → Text
  | .array (x :: xs) =>
    let indent := place.arrayIndent
    place.lead indent ++ '-' :: writeAt (.afterMark indent) x ++ moreItems indent xs
  | .object ((name, x) :: fields) =>
    let indent := place.objectIndent
    let (text, placeOfValue) := writeName indent name
    place.lead indent ++ text ++ writeAt placeOfValue x ++ moreFields indent fields
  | leaf => place.writeLeaf leaf

/-- The items after the first one, each on a line of its own. -/
def moreItems (indent : Nat) : List Json → Text
  | [] => []
  | x :: xs => newLine indent ++ '-' :: writeAt (.afterMark indent) x ++ moreItems indent xs

def moreFields (indent : Nat) : List (WideText × Json) → Text
  | [] => []
  | (name, x) :: fields =>
    let (text, place) := writeName indent name
    newLine indent ++ text ++ writeAt place x ++ moreFields indent fields

end

/-- Whether a document is one unquoted word. -/
def isPlainWord : Json → Bool
  | .array _ => false
  | .object _ => false
  | .string s => style s = .plain
  | _ => true

/-- The whole document.  A document that is one unquoted word is closed by three dots. -/
def document (value : Json) : Text :=
  writeAt .start value ++ if isPlainWord value then "\n...\n".toList else ['\n']

end JsonnetLens.Yaml
