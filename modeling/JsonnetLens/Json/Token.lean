import JsonnetLens.Json.Basic
import JsonnetLens.Number.FloatText
import JsonnetLens.Text.Hex
/-!
# JSON tokens

`tokens` cuts a text into tokens, each with its offset.  A place that begins no token yields one bad
token and ends the list, so what stands there is reported by whoever expected something else.
-/
namespace JsonnetLens.Json

/-- What is wrong inside a string. -/
inductive StringFault where
  | unterminated
  | controlCharacter
  | escape
  | unicodeEscape
  deriving DecidableEq, Repr

inductive Token where
  | openBracket
  | closeBracket
  | openBrace
  | closeBrace
  | comma
  | colon
  /-- A value that one word names. -/
  | word (value : Json)
  | int (negative : Bool) (digits : Text)
  | float (x : Float)
  | string (s : WideText)
  | badString (fault : StringFault) (offset : Nat)
  | bad

namespace Token

def isBad : Token → Bool
  | .badString .. => true
  | .bad => true
  | _ => false

/-! ## Strings -/

/-- What reading a string up to its closing quote gives: its code points before surrogate pairs
are joined, and the offset after the quote. -/
inductive Scan where
  | closed (points : WideText) (offset : Nat)
  | failed (fault : StringFault) (offset : Nat)

def Scan.push (p : CodePoint) : Scan → Scan
  | .closed points offset => .closed (p :: points) offset
  | .failed fault offset => .failed fault offset

def hexPoint? (a b c d : Char) : Option CodePoint :=
  match Hex.value? a, Hex.value? b, Hex.value? c, Hex.value? d with
  | some a, some b, some c, some d =>
    some (Fin.ofNat 0x110000 (((a * 16 + b) * 16 + c) * 16 + d))
  | _, _, _, _ => none

def escaped? : Char → Option Char
  | '"' => some '"'
  | '\\' => some '\\'
  | '/' => some '/'
  | 'b' => some '\x08'
  | 'f' => some '\x0C'
  | 'n' => some '\n'
  | 'r' => some '\r'
  | 't' => some '\t'
  | _ => none

/-- Reads from `offset` inside a string that began at `start`.  Four hexadecimal digits count only
when something follows them. -/
def scan (start offset : Nat) : Text → Scan
  | [] => .failed .unterminated start
  | '"' :: _ => .closed [] (offset + 1)
  | ['\\'] => .failed .unterminated start
  | '\\' :: 'u' :: a :: b :: c :: d :: next :: rest =>
    match hexPoint? a b c d with
    | some p => (scan start (offset + 6) (next :: rest)).push p
    | none => .failed .unicodeEscape (offset + 1)
  | '\\' :: 'u' :: _ => .failed .unicodeEscape (offset + 1)
  | '\\' :: e :: rest =>
    match escaped? e with
    | some c => (scan start (offset + 2) rest).push (CodePoint.ofChar c)
    | none => .failed .escape offset
  | c :: rest =>
    if c.toNat < 0x20 then .failed .controlCharacter offset
    else (scan start (offset + 1) rest).push (CodePoint.ofChar c)

/-- The code point of a surrogate pair. -/
def joinPair (high low : CodePoint) : CodePoint :=
  Fin.ofNat 0x110000 (0x10000 + (high.val - 0xD800) * 0x400 + (low.val - 0xDC00))

/-- Joins each high surrogate with the low one right after it. -/
def joinPairs : WideText → WideText
  | [] => []
  | [p] => [p]
  | p :: q :: rest =>
    if p.isHighSurrogate && q.isLowSurrogate then joinPair p q :: joinPairs rest
    else p :: joinPairs (q :: rest)

/-! ## Numbers -/

/-- The exponent at the front of a text with the number of characters it takes: a letter, perhaps a
sign, and at least one digit. -/
def exponent? : Text → Option (Int × Nat)
  | [] => none
  | e :: rest =>
    let (negative, digits, taken) :=
      match rest with
      | '-' :: more => (true, more.takeWhile Char.isDigit, 2)
      | '+' :: more => (false, more.takeWhile Char.isDigit, 2)
      | more => (false, more.takeWhile Char.isDigit, 1)
    if (e = 'e' || e = 'E') && !digits.isEmpty then
      let n : Int := Text.digitsValue digits
      some (if negative then -n else n, taken + digits.length)
    else none

/-- The digits before the point: a lone zero, or digits that begin with another one. -/
def whole : Text → Text
  | '0' :: _ => ['0']
  | t => t.takeWhile Char.isDigit

/-- The digits of the fraction at the front of a text. -/
def fraction : Text → Text
  | '.' :: rest => rest.takeWhile Char.isDigit
  | _ => []

/-- The unsigned number at the front of a text with the number of characters it takes. -/
def number? (negative : Bool) (t : Text) : Option (Token × Nat) :=
  let whole := whole t
  if whole.isEmpty then none
  else
    let fraction := fraction (t.drop whole.length)
    let size := whole.length + if fraction.isEmpty then 0 else fraction.length + 1
    let value (exponent : Int) :=
      Binary64.ofDecimal negative (Text.digitsValue (whole ++ fraction)) (exponent - fraction.length)
    match exponent? (t.drop size) with
    | some (exponent, taken) => some (.float (value exponent), size + taken)
    | none => some (if fraction.isEmpty then .int negative whole else .float (value 0), size)

/-! ## The cut -/

def words : List (Text × Json) :=
  [("null".toList, .null), ("true".toList, .bool true), ("false".toList, .bool false),
    ("NaN".toList, .float Binary64.notANumber),
    ("Infinity".toList, .float (Binary64.infinity false)),
    ("-Infinity".toList, .float (Binary64.infinity true))]

def word? (t : Text) : Option (Token × Nat) :=
  words.findSome? fun (name, value) => (Text.after? name t).map fun _ => (.word value, name.length)

/-- The token at the front of a text, and how many characters it takes. -/
def read (offset : Nat) : Text → Token × Nat
  | [] => (.bad, 1)
  | '[' :: _ => (.openBracket, 1)
  | ']' :: _ => (.closeBracket, 1)
  | '\x7b' :: _ => (.openBrace, 1)
  | '\x7d' :: _ => (.closeBrace, 1)
  | ',' :: _ => (.comma, 1)
  | ':' :: _ => (.colon, 1)
  | '"' :: rest =>
    match scan offset (offset + 1) rest with
    | .closed points after => (.string (joinPairs points), after - offset)
    | .failed fault at' => (.badString fault at', 1)
  | t =>
    match word? t with
    | some found => found
    | none =>
      match t with
      | '-' :: rest =>
        match number? true rest with
        | some (token, size) => (token, size + 1)
        | none => (.bad, 1)
      | t => (number? false t).getD (.bad, 1)

end Token

/-- A token and where it begins. -/
structure Lexeme where
  token : Token
  offset : Nat

def isSpace (c : Char) : Bool := c = ' ' || c = '\t' || c = '\n' || c = '\r'

/-- The tokens of a text from an offset on, the first `skip` characters belonging to the token
before. -/
def tokensFrom : (skip offset : Nat) → Text → List Lexeme
  | _, _, [] => []
  | skip + 1, offset, _ :: rest => tokensFrom skip (offset + 1) rest
  | 0, offset, c :: rest =>
    if isSpace c then tokensFrom 0 (offset + 1) rest
    else
      let (token, size) := Token.read offset (c :: rest)
      ⟨token, offset⟩ :: if token.isBad then [] else tokensFrom (size - 1) (offset + 1) rest

def tokens (t : Text) : List Lexeme := tokensFrom 0 0 t

end JsonnetLens.Json
