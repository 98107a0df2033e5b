import JsonnetLens.Text.Column
import JsonnetLens.Diagnostic.Record
/-!
# Terminal output

Text for people goes through `display`: control characters are left out and tabs lead to the next
column that is a multiple of eight.  All output loses the spaces at the ends of its lines.
-/
namespace JsonnetLens.CommandLine

namespace Terminal

/-- The distance between tab stops. -/
def tabStop : Nat := 8

/-- Writes on from a column; a tab takes at least one column. -/
def expandTabs (column : Nat) : Text → Text
  | [] => []
  | c :: rest =>
    if c = '\n' then c :: expandTabs 0 rest
    else if c = '\t' then
      let next := (column / tabStop + 1) * tabStop
      Text.spaces (next - column) ++ expandTabs next rest
    else c :: expandTabs (column + Text.columns c) rest

/-- A text as it is shown, on lines of its own. -/
def display (t : Text) : Text := expandTabs 0 (shown t) ++ ['\n']

/-- Drops the spaces at the end of each line; `held` counts those not yet written. -/
def trimLinesFrom (held : Nat) : Text → Text
  | [] => []
  | c :: rest =>
    if c = ' ' then trimLinesFrom (held + 1) rest
    else if c = '\n' then c :: trimLinesFrom 0 rest
    else Text.spaces held ++ c :: trimLinesFrom 0 rest

def trimLines (t : Text) : Text := trimLinesFrom 0 t

end Terminal
end JsonnetLens.CommandLine
