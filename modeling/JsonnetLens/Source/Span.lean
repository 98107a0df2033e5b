import JsonnetLens.Text.Digit
import JsonnetLens.Text.Blank
import JsonnetLens.Fault
/-!
# Spans in compiler output

The compiler writes a span of source in one of four notations: `L:C`, `L:C-C`, `L:C-L:C` and
`(L:C)-(L:C)`, with digits of any script.  `RangeText` is a span as written and `RangeText.take?`
reads the longest one at the front of a text; `Span.match?` turns it into numbers, counted from one
and in document order.
-/
namespace JsonnetLens

/-- A line and a column, both counted from one. -/
structure Spot where
  line : Nat
  column : Nat
  deriving DecidableEq, Repr

/-- Document order. -/
def Spot.le (a b : Spot) : Bool := a.line < b.line || (a.line = b.line && a.column ≤ b.column)

structure Span where
  first : Spot
  last : Spot
  deriving DecidableEq, Repr

/-- A span as it is written, each field a run of digits. -/
inductive RangeText where
  | point (line column : Text)
  | within (line column lastColumn : Text)
  | across (line column lastLine lastColumn : Text)
  | parenthesized (line column lastLine lastColumn : Text)
  deriving DecidableEq, Repr

namespace RangeText

def text : RangeText → Text
  | point l c => l ++ ':' :: c
  | within l c c' => l ++ ':' :: c ++ '-' :: c'
  | across l c l' c' => l ++ ':' :: c ++ '-' :: l' ++ ':' :: c'
  | parenthesized l c l' c' => '(' :: l ++ ':' :: c ++ ")-(".toList ++ l' ++ ':' :: c' ++ [')']

/-- A run of digits that is not empty, and the text after it. -/
def takeDigits? (t : Text) : Option (Text × Text) :=
  let digits := t.takeWhile Text.isDigit
  if digits.isEmpty then none else some (digits, t.dropWhile Text.isDigit)

/-- Two runs of digits with a colon between them. -/
def takePair? (t : Text) : Option (Text × Text × Text) :=
  match takeDigits? t with
  | some (line, ':' :: rest) =>
    (takeDigits? rest).map fun (column, rest) => (line, column, rest)
  | _ => none

/-- A span ends at the end of the text, before a blank or before a colon. -/
def isEnd : Text → Bool
  | [] => true
  | c :: _ => c = ':' || Text.isBlank c

def ended (range : RangeText) (rest : Text) : Option (RangeText × Text) :=
  if isEnd rest then some (range, rest) else none

def takeParenthesized? (t : Text) : Option (RangeText × Text) :=
  match takePair? t with
  | some (l, c, ')' :: '-' :: '(' :: rest) =>
    match takePair? rest with
    | some (l', c', ')' :: rest) => ended (parenthesized l c l' c') rest
    | _ => none
  | _ => none

/-- The end of a span after its minus sign: line and column if that leads to an end, a column alone
otherwise. -/
def takeLast? (l c rest : Text) : Option (RangeText × Text) :=
  match takeDigits? rest with
  | none => none
  | some (d, rest') =>
    match (takePair? rest).bind fun (l', c', rest) => ended (across l c l' c') rest with
    | some found => some found
    | none => ended (within l c d) rest'

/-- The longest span at the front of a text, and the text after it. -/
def take? (t : Text) : Option (RangeText × Text) :=
  match t with
  | '(' :: rest => takeParenthesized? rest
  | t =>
    match takePair? t with
    | some (l, c, '-' :: rest) => takeLast? l c rest
    | some (l, c, rest) => ended (point l c) rest
    | none => none

/-- The four numbers: line and column of the first spot, then of the last. -/
def fields : RangeText → Text × Text × Text × Text
  | point l c => (l, c, l, c)
  | within l c c' => (l, c, l, c')
  | across l c l' c' => (l, c, l', c')
  | parenthesized l c l' c' => (l, c, l', c')

end RangeText

/-- The number that a run of digits writes, unless the run is too long. -/
def readDigits (digits : Text) : Except Fault Nat :=
  if digits.length > Text.digitLimit then .error (.tooManyDigits digits.length)
  else .ok (Text.digitsValue digits)

/-- The span that a notation denotes, whether or not it is in order. -/
def RangeText.span (range : RangeText) : Except Fault Span := do
  let (l, c, l', c') := range.fields
  let line ← readDigits l
  let column ← readDigits c
  let lastLine ← readDigits l'
  let lastColumn ← readDigits c'
  return ⟨⟨line, column⟩, ⟨lastLine, lastColumn⟩⟩

namespace Span

/-- All numbers count from one and the span does not end before it begins. -/
def isProper (s : Span) : Bool :=
  1 ≤ s.first.line && 1 ≤ s.first.column && 1 ≤ s.last.line && 1 ≤ s.last.column &&
    s.first.le s.last

/-- A colon in front of a span does not belong to it. -/
def dropColon : Text → Text
  | ':' :: rest => rest
  | t => t

/-- The span at the front of a text, after a colon and blanks that may lead to it, and the text
after it. -/
def match? (t : Text) : Except Fault (Option (Span × Text)) :=
  match RangeText.take? ((dropColon t).dropWhile Text.isBlank) with
  | none => .ok none
  | some (range, rest) =>
    match range.span with
    | .error fault => .error fault
    | .ok span => .ok (if span.isProper then some (span, rest) else none)

end Span

/-- A span in a file.  The name of the file is taken as it is given. -/
structure FileSpan where
  file : Text
  span : Span
  deriving DecidableEq, Repr

/-- The span of a file at the front of a text, and the text after it. -/
def FileSpan.match? (file t : Text) : Except Fault (Option (FileSpan × Text)) :=
  (Span.match? t).map (Option.map fun found => (⟨file, found.1⟩, found.2))

end JsonnetLens
