import JsonnetLens.Text.Blank
/-!
# Frames of a stack trace

A line of a stack trace begins, after blanks, with the name of a file and a colon.  The name ends at
the first colon and begins with something else than a blank.
-/
namespace JsonnetLens

structure Frame where
  indent : Text
  file : Text
  /-- What follows the colon. -/
  rest : Text
  deriving DecidableEq, Repr

namespace Frame

def match? (line : Text) : Option Frame :=
  let indent := line.takeWhile Text.isBlank
  match Text.cutFirst? ':' (line.dropWhile Text.isBlank) with
  | some (file, rest) => if file.isEmpty then none else some { indent, file, rest }
  | none => none

/-- The blanks and the name. -/
def lead (f : Frame) : Text := f.indent ++ f.file

/-- The blanks, the name and the colon. -/
def full (f : Frame) : Text := f.lead ++ [':']

end Frame
end JsonnetLens
