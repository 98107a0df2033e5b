/-!
# Double precision numbers, taken apart and put together

A finite double is `mantissa · 2 ^ exponent` up to its sign.  `view` reads that form off the bits,
and `ofRatio` goes back from an exact quotient of naturals: the nearest double, a tie going to the
even mantissa.  All arithmetic is on `Nat`, so no step rounds before the last one.
-/
namespace JsonnetLens.Binary64

/-- A double as a number. -/
inductive View where
  | notANumber
  | infinite (negative : Bool)
  | finite (negative : Bool) (mantissa : Nat) (exponent : Int)
  deriving DecidableEq, Repr

def view (x : Float) : View :=
  let bits : Nat := x.toBits.toNat
  let negative : Bool := bits ≥ Nat.pow 2 63
  let biased : Nat := bits / Nat.pow 2 52 % Nat.pow 2 11
  let fraction : Nat := bits % Nat.pow 2 52
  if biased = 0x7FF then if fraction = 0 then .infinite negative else .notANumber
  else if biased = 0 then .finite negative fraction (-1074)
  else .finite negative (Nat.pow 2 52 + fraction) ((biased : Int) - 1075)

/-- The quotient rounded to a natural, a half going to the even neighbour. -/
def roundDiv (num den : Nat) : Nat :=
  let q := num / den
  let r := num % den
  if 2 * r > den ∨ (2 * r = den ∧ q % 2 = 1) then q + 1 else q

/-- `num / den` divided by `2 ^ exponent`, as a quotient of naturals. -/
def scaled (num den : Nat) (exponent : Int) : Nat × Nat :=
  if exponent ≥ 0 then (num, den * Nat.pow 2 exponent.toNat) else (num * Nat.pow 2 (-exponent).toNat, den)

/-- The exponent that leaves a mantissa of 53 bits, or the least one there is. -/
def exponentFor (num den : Nat) : Int :=
  let guess : Int := (num.log2 : Int) - den.log2 - 53
  let (n, d) := scaled num den guess
  max (-1074) (if n / d ≥ Nat.pow 2 53 then guess + 1 else guess)

def infinityBits : Nat := 0x7FF * Nat.pow 2 52

/-- The bits of the double nearest to a positive quotient, infinity when none is near enough. -/
def ratioBits (num den : Nat) : Nat :=
  if num = 0 then 0
  else
    let exponent := exponentFor num den
    let (n, d) := scaled num den exponent
    let mantissa := roundDiv n d
    min infinityBits ((exponent + 1074).toNat * Nat.pow 2 52 + mantissa)

def ofBits (negative : Bool) (magnitude : Nat) : Float :=
  Float.ofBits (UInt64.ofNat (magnitude + if negative then Nat.pow 2 63 else 0))

def ofRatio (negative : Bool) (num den : Nat) : Float := ofBits negative (ratioBits num den)

def infinity (negative : Bool) : Float := ofBits negative infinityBits

def notANumber : Float := ofBits false (infinityBits + Nat.pow 2 51)

/-- The double nearest to `digits · 10 ^ exponent`.  A decimal far out of range is settled by the
place of its first digit alone, so no huge power is built. -/
def ofDecimal (negative : Bool) (digits : Nat) (exponent : Int) : Float :=
  let magnitude : Int := (Nat.toDigits 10 digits).length + exponent
  if digits = 0 ∨ magnitude < -330 then ofBits negative 0
  else if magnitude > 310 then infinity negative
  else if exponent ≥ 0 then ofRatio negative (digits * Nat.pow 10 exponent.toNat) 1
  else ofRatio negative digits (Nat.pow 10 (-exponent).toNat)

/-- The double nearest to an integer; `none` when the integer is out of range. -/
def ofInt? (i : Int) : Option Float :=
  if ratioBits i.natAbs 1 < infinityBits then some (ofRatio (decide (i < 0)) i.natAbs 1) else none

end JsonnetLens.Binary64
