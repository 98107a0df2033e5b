import JsonnetLens.Text.Hex
import JsonnetLens.Text.Utf8
/-!
# Percent coding

`quote` writes every byte outside the unreserved set and the slash as `%XX`.  `unquote` reads: a
percent sign without two hexadecimal digits stands for itself, and each run of ASCII characters is
read as UTF-8 on its own.
-/
namespace JsonnetLens.Percent

/-- Letters, digits, `_`, `.`, `-`, `~` and the slash are written as they are. -/
def isKept (c : Char) : Bool :=
  c.isAlphanum || c = '_' || c = '.' || c = '-' || c = '~' || c = '/'

def quoteByte (b : UInt8) : Text := '%' :: Hex.upper 2 b.toNat

def quoteChar (c : Char) : Text := if isKept c then [c] else (Utf8.encodeChar c).flatMap quoteByte

def quote (t : Text) : Text := t.flatMap quoteChar

/-- Reads on while `run` holds, in reverse, the bytes of the ASCII run read so far. -/
def unquoteFrom (run : List UInt8) : Text → Text
  | [] => Utf8.decode run.reverse
  | '%' :: high :: low :: rest =>
    match Hex.value? high, Hex.value? low with
    | some h, some l => unquoteFrom (.ofNat (16 * h + l) :: run) rest
    | _, _ => unquoteFrom (.ofNat 0x25 :: run) (high :: low :: rest)
  | c :: rest =>
    if Text.isAscii c then unquoteFrom (.ofNat c.toNat :: run) rest
    else Utf8.decode run.reverse ++ c :: unquoteFrom [] rest

def unquote (t : Text) : Text := unquoteFrom [] t

end JsonnetLens.Percent
