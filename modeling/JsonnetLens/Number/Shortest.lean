import JsonnetLens.Number.Binary64
/-!
# Shortest decimals

The decimal with the fewest digits among those that read back as a given double.  For one digit,
two digits and so on it tests the two neighbours of the double on that decimal grid; the first grid
with a hit wins, of two hits the nearer, and of two equally near the even one.
-/
namespace JsonnetLens.Shortest

/-- A decimal `digits · 10 ^ exponent`. -/
structure Decimal where
  digits : Nat
  exponent : Int
  deriving DecidableEq, Repr

/-- A double with the ends of the interval that rounds to it, all over one denominator. -/
structure Neighbourhood where
  low : Nat
  value : Nat
  high : Nat
  denominator : Nat
  /-- Whether the ends themselves round to the double. -/
  closed : Bool

/-- Below a power of two the next double is half as far as above it. -/
def neighbourhood (mantissa : Nat) (exponent : Int) : Neighbourhood :=
  let narrow := mantissa = Nat.pow 2 52 ∧ exponent > -1074
  let unit := exponent - 2
  let scale := Nat.pow 2 unit.toNat
  { low := (4 * mantissa - if narrow then 1 else 2) * scale
    value := 4 * mantissa * scale
    high := (4 * mantissa + 2) * scale
    denominator := Nat.pow 2 (-unit).toNat
    closed := mantissa % 2 = 0 }

/-- Whether `n / d` lies in the interval. -/
def Neighbourhood.contains (v : Neighbourhood) (n d : Nat) : Bool :=
  let x := n * v.denominator
  if v.closed then v.low * d ≤ x && x ≤ v.high * d else v.low * d < x && x < v.high * d

/-- The grid of step `10 ^ step` has its point `k` at `k · up / down`. -/
def gridUp (step : Int) : Nat := Nat.pow 10 step.toNat

def gridDown (step : Int) : Nat := Nat.pow 10 (-step).toNat

/-- The neighbour of the value on the grid that reads back, if one does. -/
def onGrid? (v : Neighbourhood) (step : Int) : Option Decimal :=
  let up := gridUp step
  let down := gridDown step
  let k := v.value * down / (v.denominator * up)
  let below := v.contains (k * up) down
  let above := v.contains ((k + 1) * up) down
  let twice := 2 * v.value * down
  let middle := (2 * k + 1) * up * v.denominator
  let takeAbove := above && (!below || twice > middle || (twice = middle && k % 2 = 1))
  if takeAbove then some ⟨k + 1, step⟩ else if below then some ⟨k, step⟩ else none

/-- The number of digits before the point, at least as a first guess from above. -/
def magnitude (v : Neighbourhood) : Int :=
  if v.value ≥ v.denominator then (Nat.toDigits 10 (v.value / v.denominator)).length
  else 1 - ((Nat.toDigits 10 (v.denominator / v.value)).length : Int)

/-- Moves the zeros at the end of the digits into the exponent. -/
def Decimal.strip (x : Decimal) : Nat → Decimal
  | 0 => x
  | places + 1 =>
    if x.digits % 10 = 0 then Decimal.strip ⟨x.digits / 10, x.exponent + 1⟩ places else x

/-- The shortest decimal of `mantissa · 2 ^ exponent`; the mantissa is not zero. -/
def shortest (mantissa : Nat) (exponent : Int) : Decimal :=
  let v := neighbourhood mantissa exponent
  let top := magnitude v
  let found := (List.range 20).findSome? fun (count : Nat) => onGrid? v (top - count)
  (found.getD ⟨mantissa * gridUp exponent, exponent⟩).strip 20

end JsonnetLens.Shortest
