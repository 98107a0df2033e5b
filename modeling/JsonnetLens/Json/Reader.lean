import JsonnetLens.Json.Nesting
import JsonnetLens.Json.Token
/-!
# Reading JSON

The reader consumes tokens one at a time, with the open arrays and objects on a stack.  The first
token that does not fit is the error, and its place is given as line, column and offset.  An array or
object that is opened inside too many others is an error as soon as it is opened.
-/
namespace JsonnetLens.Json

/-- What a reader that stops had expected, or what is wrong inside a string. -/
inductive SyntaxCause where
  | expectedValue
  | expectedName
  | expectedColon
  | expectedComma
  | extraData
  | inString (fault : StringFault)
  | byteOrderMark
  deriving DecidableEq, Repr

/-- A text that is not JSON: the line and column count from one, the offset from zero. -/
structure SyntaxError where
  cause : SyntaxCause
  line : Nat
  column : Nat
  offset : Nat
  deriving DecidableEq, Repr

/-- What a value can have too much of to be read. -/
inductive Limit where
  /-- An integer has more digits than are converted. -/
  | digits (count : Nat)
  /-- Arrays and objects nest deeper than the stack allows. -/
  | depth
  deriving DecidableEq, Repr

inductive ReadError where
  | badSyntax (error : SyntaxError)
  | beyond (limit : Limit)
  deriving DecidableEq, Repr

def SyntaxCause.message : SyntaxCause → Text
  | .expectedValue => "Expecting value".toList
  | .expectedName => "Expecting property name enclosed in double quotes".toList
  | .expectedColon => "Expecting ':' delimiter".toList
  | .expectedComma => "Expecting ',' delimiter".toList
  | .extraData => "Extra data".toList
  | .inString .unterminated => "Unterminated string starting at".toList
  | .inString .controlCharacter => "Invalid control character at".toList
  | .inString .escape => "Invalid \\escape".toList
  | .inString .unicodeEscape => "Invalid \\uXXXX escape".toList
  | .byteOrderMark => "Unexpected UTF-8 BOM (decode using utf-8-sig)".toList

def SyntaxError.message (e : SyntaxError) : Text :=
  e.cause.message ++ ": line ".toList ++ Text.ofNat e.line ++ " column ".toList ++
    Text.ofNat e.column ++ " (char ".toList ++ Text.ofNat e.offset ++ [')']

def SyntaxError.locate (doc : Text) (cause : SyntaxCause) (offset : Nat) : SyntaxError :=
  let before := doc.take offset
  { cause
    line := before.count '\n' + 1
    column := (before.reverse.takeWhile (· ≠ '\n')).length + 1
    offset }

namespace Reader

/-- An open array with its items so far, the last one first, or an open object with its fields and
the name of the field that is read. -/
inductive Frame where
  | array (items : List Json)
  | object (fields : List (WideText × Json)) (name : WideText)

/-- What may come next. -/
inductive Expect where
  | value
  /-- A value, or the end of the array that has just begun. -/
  | firstItem
  /-- A name, or the end of the object that has just begun. -/
  | firstName
  | name (fields : List (WideText × Json))
  | colon (fields : List (WideText × Json)) (name : WideText)
  /-- What may follow a value. -/
  | after (value : Json)

/-- An error by its offset. -/
inductive Stop where
  | at (cause : SyntaxCause) (offset : Nat)
  | beyond (limit : Limit)

variable [Nesting]

/-- The stack and the expectation after a token that begins a value. -/
def beginValue (stack : List Frame) (lexeme : Lexeme) : Except Stop (List Frame × Expect) :=
  match lexeme.token with
  | .openBracket =>
    if stack.length < Nesting.reading then .ok (.array [] :: stack, .firstItem)
    else .error (.beyond .depth)
  | .openBrace =>
    if stack.length < Nesting.reading then .ok (stack, .firstName) else .error (.beyond .depth)
  | .word v => .ok (stack, .after v)
  | .float x => .ok (stack, .after (.float x))
  | .string s => .ok (stack, .after (.string s))
  | .int negative digits =>
    if digits.length > Text.digitLimit then .error (.beyond (.digits digits.length))
    else
      let n : Int := Text.digitsValue digits
      .ok (stack, .after (.int (if negative then -n else n)))
  | .badString fault offset => .error (.at (.inString fault) offset)
  | _ => .error (.at .expectedValue lexeme.offset)

def readName (stack : List Frame) (fields : List (WideText × Json)) (lexeme : Lexeme) :
    Except Stop (List Frame × Expect) :=
  match lexeme.token with
  | .string s => .ok (stack, .colon fields s)
  | .badString fault offset => .error (.at (.inString fault) offset)
  | _ => .error (.at .expectedName lexeme.offset)

def endValue (stack : List Frame) (value : Json) (lexeme : Lexeme) :
    Except Stop (List Frame × Expect) :=
  match stack, lexeme.token with
  | [], _ => .error (.at .extraData lexeme.offset)
  | .array items :: outer, .comma => .ok (.array (value :: items) :: outer, .value)
  | .array items :: outer, .closeBracket => .ok (outer, .after (.array (value :: items).reverse))
  | .object fields name :: outer, .comma => .ok (outer, .name (Table.insert name value fields))
  | .object fields name :: outer, .closeBrace =>
    .ok (outer, .after (.object (Table.insert name value fields)))
  | _ :: _, _ => .error (.at .expectedComma lexeme.offset)

def step (stack : List Frame) (expect : Expect) (lexeme : Lexeme) :
    Except Stop (List Frame × Expect) :=
  match expect, lexeme.token, stack with
  | .firstItem, .closeBracket, _ :: outer => .ok (outer, .after (.array []))
  | .firstItem, _, _ => beginValue stack lexeme
  | .value, _, _ => beginValue stack lexeme
  | .firstName, .closeBrace, _ => .ok (stack, .after (.object []))
  | .firstName, _, _ => readName stack [] lexeme
  | .name fields, _, _ => readName stack fields lexeme
  | .colon fields name, .colon, _ => .ok (.object fields name :: stack, .value)
  | .colon _ _, _, _ => .error (.at .expectedColon lexeme.offset)
  | .after value, _, _ => endValue stack value lexeme

/-- The answer where the text ends, `size` being its length. -/
def finish (size : Nat) (stack : List Frame) : Expect → Except Stop Json
  | .value => .error (.at .expectedValue size)
  | .firstItem => .error (.at .expectedValue size)
  | .firstName => .error (.at .expectedName size)
  | .name _ => .error (.at .expectedName size)
  | .colon _ _ => .error (.at .expectedColon size)
  | .after value => if stack.isEmpty then .ok value else .error (.at .expectedComma size)

def run (size : Nat) : List Frame → Expect → List Lexeme → Except Stop Json
  | stack, expect, [] => finish size stack expect
  | stack, expect, lexeme :: rest =>
    match step stack expect lexeme with
    | .ok (stack, expect) => run size stack expect rest
    | .error stop => .error stop

end Reader

/-- The value that a text writes. -/
def read [Nesting] (t : Text) : Except ReadError Json :=
  if t.head? = some '\uFEFF' then .error (.badSyntax (.locate t .byteOrderMark 0))
  else
    match Reader.run t.length [] .value (tokens t) with
    | .ok value => .ok value
    | .error (.beyond limit) => .error (.beyond limit)
    | .error (.at cause offset) => .error (.badSyntax (.locate t cause offset))

end JsonnetLens.Json
