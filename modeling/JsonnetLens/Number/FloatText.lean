import JsonnetLens.Number.Shortest
import JsonnetLens.Text.Digit
import JsonnetLens.Text.Blank
/-!
# Doubles as text

`FloatStyle.write` prints the shortest decimal: positionally when the exponent of the first digit
is at least -4 and below 16, with an exponent of at least two digits otherwise.  What differs
between formats is a `FloatStyle`.  `readFloat?` reads what a person may type: blanks around,
digits of any script, single underscores between digits, and the names of infinity and not-a-number
in any case.
-/
namespace JsonnetLens

structure FloatStyle where
  notANumber : Text
  infinity : Text
  negativeInfinity : Text
  /-- Stands between a lone digit and its exponent. -/
  loneDigit : Text

namespace FloatStyle

def exponentText (e : Int) : Text :=
  let digits := Text.ofNat e.natAbs
  'e' :: (if e < 0 then '-' else '+') :: (if digits.length < 2 then '0' :: digits else digits)

def writeDecimal (style : FloatStyle) (x : Shortest.Decimal) : Text :=
  let digits := Text.ofNat x.digits
  let point : Int := digits.length + x.exponent
  if -4 ≤ point - 1 ∧ point - 1 < 16 then
    if point ≤ 0 then "0.".toList ++ List.replicate (-point).toNat '0' ++ digits
    else if x.exponent ≥ 0 then digits ++ List.replicate x.exponent.toNat '0' ++ ".0".toList
    else digits.take point.toNat ++ '.' :: digits.drop point.toNat
  else
    match digits with
    | [] => []
    | [d] => d :: style.loneDigit ++ exponentText (point - 1)
    | d :: rest => d :: '.' :: rest ++ exponentText (point - 1)

def write (style : FloatStyle) (x : Float) : Text :=
  match Binary64.view x with
  | .notANumber => style.notANumber
  | .infinite negative => if negative then style.negativeInfinity else style.infinity
  | .finite negative mantissa exponent =>
    let magnitude :=
      if mantissa = 0 then "0.0".toList
      else style.writeDecimal (Shortest.shortest mantissa exponent)
    if negative then '-' :: magnitude else magnitude

/-- The style of messages. -/
def plain : FloatStyle :=
  { notANumber := "nan".toList, infinity := "inf".toList, negativeInfinity := "-inf".toList
    loneDigit := [] }

end FloatStyle

namespace FloatText

/-- The exponent that follows `e`: `none` when a digit is missing or something else is there. -/
def readExponent? (t : Text) : Option Int :=
  let (negative, digits) :=
    match t with
    | '-' :: rest => (true, rest)
    | '+' :: rest => (false, rest)
    | rest => (false, rest)
  if digits.isEmpty || !digits.all Char.isDigit then none
  else
    let n : Int := Text.digitsValue digits
    some (if negative then -n else n)

/-- An unsigned decimal: digits with at most one point and at least one digit, then perhaps an
exponent. -/
def readMagnitude? (negative : Bool) (t : Text) : Option Float :=
  let whole := t.takeWhile Char.isDigit
  let afterWhole := t.dropWhile Char.isDigit
  let (fraction, rest) :=
    match afterWhole with
    | '.' :: more => (more.takeWhile Char.isDigit, more.dropWhile Char.isDigit)
    | more => ([], more)
  let digits := Text.digitsValue (whole ++ fraction)
  let place : Int := -(fraction.length : Int)
  if whole.isEmpty && fraction.isEmpty then none
  else
    match rest with
    | [] => some (Binary64.ofDecimal negative digits place)
    | c :: exponent =>
      if c = 'e' || c = 'E' then
        (readExponent? exponent).map fun e => Binary64.ofDecimal negative digits (place + e)
      else none

def readUnsigned? (negative : Bool) (t : Text) : Option Float :=
  let name := Text.lowerAscii t
  if name = "inf".toList || name = "infinity".toList then some (Binary64.infinity negative)
  else if name = "nan".toList then some Binary64.notANumber
  else readMagnitude? negative t

/-- Drops the underscores; `none` when one does not stand between two digits. -/
def dropUnderscores? : (previous : Char) → Text → Option Text
  | previous, [] => if previous = '_' then none else some []
  | previous, c :: rest =>
    if c = '_' then if previous.isDigit then dropUnderscores? c rest else none
    else if previous = '_' && !c.isDigit then none
    else (dropUnderscores? c rest).map (c :: ·)

/-- Digits of every script become ASCII ones and blanks above ASCII become spaces. -/
def toAscii (c : Char) : Char :=
  if Text.isAscii c then c
  else if Text.isBlank c then ' '
  else match Text.digitValue? c with
    | some d => Nat.digitChar d
    | none => c

/-- Blanks that may surround a number; the information separators are not among them. -/
def isMargin (c : Char) : Bool := (9 ≤ c.toNat && c.toNat ≤ 13) || c = ' '

end FloatText

/-- Reads a number as a person may type it. -/
def readFloat? (t : Text) : Option Float :=
  match FloatText.dropUnderscores? ' ' (Text.trim FloatText.isMargin (t.map FloatText.toAscii)) with
  | none => none
  | some ('-' :: rest) => FloatText.readUnsigned? true rest
  | some ('+' :: rest) => FloatText.readUnsigned? false rest
  | some t => FloatText.readUnsigned? false t

end JsonnetLens
