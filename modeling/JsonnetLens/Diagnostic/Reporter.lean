import JsonnetLens.Diagnostic.CompilerError
import JsonnetLens.Diagnostic.Sink
/-!
# Reporting compiler errors for documents

A report replaces everything in the sink by what the compiler says about one document.  A static
error is published where it is located; of a stack trace only the frames in the document itself are
published.  The reporter remembers the other files that it published for a document, so that
clearing the document also clears those.
-/
namespace JsonnetLens

structure Reporter (σ : Type) where
  sink : σ
  /-- The other paths that were published for a document, by the path of the document. -/
  publishedFor : Table Text (List Text) := []

namespace Reporter

variable {σ : Type}

def onSink {α : Type} (x : Attempt σ α) : Attempt (Reporter σ) α :=
  Attempt.onPart Reporter.sink (fun sink r => { r with sink }) x

/-- The normal path of a document by its URI or path. -/
def documentPath (uri : Text) : Except Fault Text :=
  (FileUri.normalPath? uri).mapError Fault.badHost

/-- A file as the compiler names it, seen from the directory in which the compiler ran. -/
def resolve (base : Path) (file : Text) : Text := (base ++ Path.ofText file).normal.toText

/-- The directory in which the compiler ran, or else the one of the document. -/
def baseDirectory (document : Text) (directory : Option Text) : Path :=
  match directory with
  | some d => if d.isEmpty then (Path.ofText document).parent else Path.ofText d
  | none => (Path.ofText document).parent

/-- Remembers that a path was published for a document. -/
def remember (document path : Text) (r : Reporter σ) : Reporter σ :=
  let paths := (r.publishedFor.get? document).getD []
  { r with
    publishedFor :=
      r.publishedFor.insert document (if paths.contains path then paths else paths ++ [path]) }

variable [Sink σ]

/-- Publishes one group of a static error. -/
def publishGroup (document : Text) (base : Path) (file : Text) (records : List Record) :
    Attempt (Reporter σ) Unit := do
  let path := resolve base file
  onSink (Sink.set path records)
  if path ≠ document then modify (remember document path)

/-- The records of a batch that lie in the document. -/
def documentRecords (document : Text) (base : Path) (batch : Batch) : List Record :=
  (batch.filter fun group => resolve base group.1 = document).flatMap Prod.snd

/-- Replaces all that is published by what `text` says, and answers all that it locates. -/
def report (uri text : Text) (directory : Option Text) : Attempt (Reporter σ) Batch := do
  let document ← documentPath uri
  let base := baseDirectory document directory
  onSink Sink.clearAll
  modify fun r => { r with publishedFor := [] }
  match CompilerError.ofText text with
  | .static message =>
    let batch ← CompilerError.staticBatch message
    batch.forM fun group => publishGroup document base group.1 group.2
    return batch
  | .runtime message stack =>
    let batch ← CompilerError.runtimeBatch message stack
    let records := documentRecords document base batch
    if !records.isEmpty then onSink (Sink.set document records)
    return batch
  | .unrecognized _ => return []

/-- Drops what is published for a document, in the document and elsewhere. -/
def clear (uri : Text) : Attempt (Reporter σ) Unit := do
  let document ← documentPath uri
  onSink (Sink.delete document)
  let others := ((← get).publishedFor.get? document).getD []
  modify fun r => { r with publishedFor := r.publishedFor.erase document }
  (others.mergeSort Text.le).forM fun path => onSink (Sink.delete path)

end Reporter
end JsonnetLens
