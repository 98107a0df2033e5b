import JsonnetLens.Text.Basic
/-!
# Hexadecimal digits

Reading one digit in either case, and writing a number in a fixed number of digits.
-/
namespace JsonnetLens.Hex

def value? (c : Char) : Option Nat :=
  let n := c.toNat
  if 0x30 ≤ n ∧ n ≤ 0x39 then some (n - 0x30)
  else if 0x41 ≤ n ∧ n ≤ 0x46 then some (n - 0x37)
  else if 0x61 ≤ n ∧ n ≤ 0x66 then some (n - 0x57)
  else none

/-- The lowest `width` digits of a number, in lower case. -/
def lower : (width n : Nat) → Text
  | 0, _ => []
  | width + 1, n => lower width (n / 16) ++ [Nat.digitChar (n % 16)]

/-- The lowest `width` digits of a number, in upper case. -/
def upper (width n : Nat) : Text := (lower width n).map Char.toUpper

end JsonnetLens.Hex
