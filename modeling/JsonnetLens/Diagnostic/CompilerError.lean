import JsonnetLens.Source.Frame
import JsonnetLens.Diagnostic.Record
/-!
# Compiler errors

The text of a failed run is a first line that names the command, then the error: a static error with
one location, or a runtime error with a stack trace.  `CompilerError.ofText` tells them apart, and
`batch` finds the located records in either.
-/
namespace JsonnetLens

inductive CompilerError where
  | static (message : Text)
  | runtime (message : Text) (stack : List Text)
  | unrecognized (message : Text)
  deriving DecidableEq, Repr

namespace CompilerError

def staticMark : Text := "STATIC ERROR: ".toList

def runtimeMark : Text := "RUNTIME ERROR: ".toList

/-- The lines of a text; the last one is not ended by a line break and may be empty. -/
def splitLines : Text → List Text
  | [] => [[]]
  | '\r' :: '\n' :: rest => [] :: splitLines rest
  | '\n' :: rest => [] :: splitLines rest
  | c :: rest =>
    match splitLines rest with
    | line :: lines => (c :: line) :: lines
    | [] => [[c]]

/-- The lines of a text, without the empty one after a final line break. -/
def lines (t : Text) : List Text :=
  let lines := splitLines t
  if lines.getLast? = some [] then lines.dropLast else lines

/-- What the lines after the first one say. -/
def ofLines : List Text → CompilerError
  | [] => .unrecognized []
  | message :: stack =>
    if (Text.after? staticMark message).isSome then .static message
    else if (Text.after? runtimeMark message).isSome then .runtime message stack
    else .unrecognized message

def ofText (t : Text) : CompilerError := ofLines ((lines t).drop 1)

/-! ## Static errors -/

def isDetailLead (c : Char) : Bool := c = ':' || c = ' ' || c = '\t'

/-- The record of a static error, if its location can be read. -/
def staticRecord? (message : Text) : Except Fault (Option Record) :=
  match Frame.match? (message.drop staticMark.length) with
  | none => .ok none
  | some frame => do
    match ← Span.match? frame.rest with
    | none => return none
    | some (span, rest) =>
      let detail := Text.trimLeft isDetailLead rest
      let range ← span.toRange
      let message := if detail.isEmpty then Text.trim Text.isBlank frame.rest else detail
      return some { file := frame.file, range, message }

def staticBatch (message : Text) : Except Fault Batch :=
  (staticRecord? message).map fun
    | none => []
    | some record => [(record.file, [record])]

/-! ## Runtime errors -/

def manifestationMark : Text := "During manifestation".toList

/-- A line of a trace that explains rather than locates. -/
def isRemark (line : Text) : Bool :=
  let trimmed := Text.trim Text.isBlank line
  trimmed.isEmpty || (Text.after? manifestationMark trimmed).isSome

/-- The record of one line of a stack trace, if the line locates anything. -/
def frameRecord? (message line : Text) : Except Fault (Option Record) :=
  if isRemark line then .ok none
  else
    match Frame.match? line with
    | none => .ok none
    | some frame => do
      match ← Span.match? (':' :: frame.rest) with
      | none => return none
      | some (span, _) => return some { file := frame.file, range := ← span.toRange, message }

/-- The records of a stack trace, each with the message of the error. -/
def runtimeBatch (message : Text) (stack : List Text) : Except Fault Batch :=
  stack.foldlM (fun batch line => do
    match ← frameRecord? message line with
    | none => return batch
    | some record => return Batch.add batch record.file record) []

def batch : CompilerError → Except Fault Batch
  | .static message => staticBatch message
  | .runtime message stack => runtimeBatch message stack
  | .unrecognized _ => .ok []

end CompilerError
end JsonnetLens
