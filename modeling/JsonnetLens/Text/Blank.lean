import JsonnetLens.Text.Basic
/-!
# Blank characters

The twenty-nine characters that count as white space in Unicode text, the four information
separators 28 to 31 among them.
-/
namespace JsonnetLens.Text

def isBlank (c : Char) : Bool :=
  let n := c.toNat
  (9 ≤ n && n ≤ 13) || (28 ≤ n && n ≤ 32) || n = 0x85 || n = 0xA0 || n = 0x1680 ||
    (0x2000 ≤ n && n ≤ 0x200A) || n = 0x2028 || n = 0x2029 || n = 0x202F || n = 0x205F || n = 0x3000

end JsonnetLens.Text
