import JsonnetLens.Yaml.Kind
import JsonnetLens.Text.CodePoint
import JsonnetLens.Text.Hex
/-!
# YAML strings

`style` picks the lightest of three spellings that reads back as the same string: plain, in single
quotes, in double quotes.  The three writers know the column where they begin, because a line longer
than eighty columns is folded at its next chance: plain and single-quoted strings at a single
space, double-quoted ones also right after an escape, with a backslash at the end of the line.
-/
namespace JsonnetLens.Yaml

/-- Lines are folded beyond this column. -/
def width : Nat := 80

inductive Style where
  | plain
  | single
  | double
  deriving DecidableEq, Repr

/-! ## Choosing a style -/

def isSpaceOrBreak (c : Char) : Bool := c = ' ' || c = '\n'

/-- Whether `c` would end a plain word, given what follows it. -/
def endsWord (rest : Text) : Bool :=
  match rest with
  | [] => true
  | next :: _ => isSpaceOrBreak next

/-- A colon before a space or the end, or a number sign after a space, anywhere after the first
character. -/
def hasInnerMark (previous : Char) : Text → Bool
  | [] => false
  | c :: rest =>
    (c = ':' && endsWord rest) || (c = '#' && isSpaceOrBreak previous) || hasInnerMark c rest

/-- Whether a plain word of this spelling would be read as structure. -/
def hasMark : Text → Bool
  | [] => false
  | c :: rest =>
    (Text.after? "---".toList (c :: rest)).isSome || (Text.after? "...".toList (c :: rest)).isSome ||
      ",#[]\x7b\x7d&*!|>'\"%@`".toList.contains c ||
      ("?:-".toList.contains c && endsWord rest) || hasInnerMark c rest

def isBare (c : Char) : Bool := 0x20 ≤ c.toNat && c.toNat ≤ 0x7E

/-- Whether two neighbours stand in the text, the first of which is `a` and the second `b`. -/
def hasNeighbours (a b : Char) : Text → Bool
  | [] => false
  | [_] => false
  | c :: d :: rest => (c = a && d = b) || hasNeighbours a b (d :: rest)

/-- The style of a text of printable ASCII and line breaks. -/
def asciiStyle (t : Text) : Style :=
  if hasNeighbours ' ' '\n' t || hasNeighbours '\n' ' ' t then .double
  else if t.contains '\n' || t.head? = some ' ' || t.getLast? = some ' ' || hasMark t || isReserved t
  then .single
  else .plain

/-- The text, when it is all printable ASCII and line breaks. -/
def ascii? (s : WideText) : Option Text :=
  s.mapM fun p => p.toChar?.filter fun c => isBare c || c = '\n'

/-! ## Writing -/

/-- How a scalar may be folded: its later lines begin at `indent`. -/
structure Margin where
  indent : Nat
  folds : Bool

def Margin.newLine (m : Margin) : Text := '\n' :: Text.spaces m.indent

/-- Writes on from a column, after a space or not. -/
def plainFrom (m : Margin) (column : Nat) (afterSpace : Bool) : Text → Text
  | [] => []
  | c :: rest =>
    if c = ' ' then
      if m.folds && !afterSpace && rest.head? ≠ some ' ' && column > width then
        m.newLine ++ plainFrom m m.indent true rest
      else ' ' :: plainFrom m (column + 1) true rest
    else c :: plainFrom m (column + 1) false rest

/-- Writes on from a column after the character `previous`, if there is one.  A run of line breaks
is written with one more. -/
def singleFrom (m : Margin) (column : Nat) (previous : Option Char) : Text → Text
  | [] => []
  | c :: rest =>
    if c = '\n' then
      let breaks := if previous = some '\n' then ['\n'] else ['\n', '\n']
      if rest.head? = some '\n' then breaks ++ singleFrom m 0 (some c) rest
      else breaks ++ Text.spaces m.indent ++ singleFrom m m.indent (some c) rest
    else if c = ' ' then
      if m.folds && previous.isSome && previous ≠ some ' ' && !rest.isEmpty &&
          rest.head? ≠ some ' ' && column > width then
        m.newLine ++ singleFrom m m.indent (some c) rest
      else ' ' :: singleFrom m (column + 1) (some c) rest
    else if c = '\'' then '\'' :: '\'' :: singleFrom m (column + 2) (some c) rest
    else c :: singleFrom m (column + 1) (some c) rest

/-- Characters with an escape of one letter. -/
def letterEscapes : List (Nat × Char) :=
  [(0, '0'), (7, 'a'), (8, 'b'), (9, 't'), (10, 'n'), (11, 'v'), (12, 'f'), (13, 'r'), (27, 'e'),
    (0x22, '"'), (0x5C, '\\'), (0x85, 'N'), (0xA0, '_'), (0x2028, 'L'), (0x2029, 'P')]

def escapePoint (p : CodePoint) : Text :=
  match letterEscapes.lookup p.val with
  | some letter => ['\\', letter]
  | none =>
    if p.val ≤ 0xFF then '\\' :: 'x' :: Hex.upper 2 p.val
    else if p.val ≤ 0xFFFF then '\\' :: 'u' :: Hex.upper 4 p.val
    else '\\' :: 'U' :: Hex.upper 8 p.val

/-- The character that stands for itself between double quotes, if the code point has one. -/
def bare? (p : CodePoint) : Option Char :=
  p.toChar?.filter fun c => isBare c && c ≠ '"' && c ≠ '\\'

/-- A space that begins a folded line is kept by a backslash. -/
def keepSpace (next : Option Char) : Text := if next = some ' ' then ['\\'] else []

/-- Writes on from a column; `first` says whether nothing is written yet, `fresh` whether the last
thing written is an escape. -/
def doubleFrom (m : Margin) (column : Nat) (first fresh : Bool) : WideText → Text
  | [] => []
  | p :: rest =>
    let mayFold := m.folds && !first && !rest.isEmpty
    match bare? p with
    | some c =>
      if mayFold && (c = ' ' || fresh) && column > width then
        let keep := keepSpace (some c)
        '\\' :: m.newLine ++ keep ++
          c :: doubleFrom m (m.indent + keep.length + 1) false false rest
      else c :: doubleFrom m (column + 1) false false rest
    | none =>
      let escape := escapePoint p
      if mayFold && column + escape.length > width + 1 then
        let keep := keepSpace (rest.head?.bind bare?)
        escape ++ '\\' :: m.newLine ++ keep ++
          doubleFrom m (m.indent + keep.length) false true rest
      else escape ++ doubleFrom m (column + escape.length) false true rest

def singleQuoted (m : Margin) (column : Nat) (t : Text) : Text :=
  '\'' :: singleFrom m (column + 1) none t ++ ['\'']

def doubleQuoted (m : Margin) (column : Nat) (s : WideText) : Text :=
  '"' :: doubleFrom m (column + 1) true true s ++ ['"']

def style (s : WideText) : Style :=
  match ascii? s with
  | some t => asciiStyle t
  | none => .double

/-- The string as it stands when its first character is in the given column. -/
def writeString (m : Margin) (column : Nat) (s : WideText) : Text :=
  match ascii? s with
  | none => doubleQuoted m column s
  | some t =>
    match asciiStyle t with
    | .plain => plainFrom m column false t
    | .single => singleQuoted m column t
    | .double => doubleQuoted m column s

end JsonnetLens.Yaml
