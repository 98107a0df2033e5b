import JsonnetLens.Source.Span
/-!
# Diagnostic records

A position in a document counts lines and characters from zero, and a range is a first position and
the position just after the last character.  A record says what is wrong in which range of which
file; a batch groups records by file, in the order in which the files first appear.
-/
namespace JsonnetLens

structure Position where
  line : Nat
  character : Nat
  deriving DecidableEq, Repr

structure Range where
  start : Position
  stop : Position
  deriving DecidableEq, Repr

namespace Position

def checkCoordinate (coordinate : Coordinate) (value : Int) : Except Fault Nat :=
  if 0 ≤ value ∧ value ≤ Fault.greatestCoordinate then .ok value.toNat
  else .error (.coordinateRange coordinate value)

/-- The position with these coordinates; the line is checked first. -/
def ofInts? (line character : Int) : Except Fault Position := do
  let line ← checkCoordinate .line line
  let character ← checkCoordinate .character character
  return ⟨line, character⟩

end Position

/-- The range with these coordinates; the first position is checked first. -/
def Range.ofInts? (line character stopLine stopCharacter : Int) : Except Fault Range := do
  let start ← Position.ofInts? line character
  let stop ← Position.ofInts? stopLine stopCharacter
  return ⟨start, stop⟩

/-- The range of a span.  A span includes its last column and a range excludes it, so that number
stays the same. -/
def Span.toRange (s : Span) : Except Fault Range :=
  Range.ofInts? (s.first.line - 1) (s.first.column - 1) (s.last.line - 1) s.last.column

structure Record where
  file : Text
  range : Range
  message : Text
  deriving DecidableEq, Repr

namespace Record

/-- Who finds the faults that are reported here. -/
def source : Text := "ksonnet".toList

/-- All records are errors, which the protocol numbers one. -/
def severity : Nat := 1

end Record

/-- A record as the client is told it: without its file, and with what all records share. -/
structure Diagnostic where
  range : Range
  message : Text
  severity : Nat
  source : Text
  deriving DecidableEq, Repr

def Record.toDiagnostic (r : Record) : Diagnostic :=
  { range := r.range, message := r.message, severity := Record.severity, source := Record.source }

/-- Records by file. -/
abbrev Batch := List (Text × List Record)

namespace Batch

/-- Adds a record after the others of its file; a new file comes last. -/
def add : Batch → Text → Record → Batch
  | [], file, record => [(file, [record])]
  | group :: rest, file, record =>
    if group.1 = file then (file, group.2 ++ [record]) :: rest else group :: add rest file record

def records (batch : Batch) : List Record := batch.flatMap Prod.snd

end Batch

/-! ## One line for each record -/

/-- Control characters that a terminal acts on; they are left out of the output. -/
def isTerminalControl (c : Char) : Bool :=
  c = '\x07' || c = '\x08' || c = '\x0B' || c = '\x0C' || c = '\x0D'

/-- What is shown of a text. -/
def shown (t : Text) : Text := t.filter (!isTerminalControl ·)

def Record.line (file : Text) (r : Record) : Text :=
  shown <| file ++ ':' :: Text.ofNat (r.range.start.line + 1) ++
    ':' :: Text.ofNat (r.range.start.character + 1) ++ '-' :: Text.ofNat (r.range.stop.line + 1) ++
    ':' :: Text.ofNat r.range.stop.character ++ " error: ".toList ++ r.message

def Batch.lines (batch : Batch) : List Text :=
  batch.flatMap fun (file, records) => records.map (Record.line file)

end JsonnetLens
