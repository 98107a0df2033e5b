import JsonnetLens.Text.Printable
import JsonnetLens.Text.Hex
/-!
# Quoted strings

The one-line spelling of a string in a message: in single quotes, or in double quotes when it holds
a single quote and no double one; what cannot be printed is written as an escape.
-/
namespace JsonnetLens.Quoted

def escapePoint (mark : Char) (p : CodePoint) : Text :=
  match p.toChar? with
  | some c =>
    if c = mark || c = '\\' then ['\\', c]
    else if c = '\n' then "\\n".toList
    else if c = '\r' then "\\r".toList
    else if c = '\t' then "\\t".toList
    else if p.isPrintable then [c]
    else escapeNumber p.val
  | none => escapeNumber p.val
where
  escapeNumber (n : Nat) : Text :=
    if n ≤ 0xFF then "\\x".toList ++ Hex.lower 2 n
    else if n ≤ 0xFFFF then "\\u".toList ++ Hex.lower 4 n
    else "\\U".toList ++ Hex.lower 8 n

/-- Double quotes serve only where they avoid an escape. -/
def mark (t : WideText) : Char :=
  if t.contains (CodePoint.ofChar '\'') && !t.contains (CodePoint.ofChar '"') then '"' else '\''

def quote (t : WideText) : Text := mark t :: t.flatMap (escapePoint (mark t)) ++ [mark t]

end JsonnetLens.Quoted
