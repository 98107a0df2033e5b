import JsonnetLens.Diagnostic.Record
import JsonnetLens.Uri.File
/-!
# Publishing diagnostics to a client

The client knows documents by their URI and can only be told the whole list for one of them.  The
publisher remembers which paths it published, so that it can send each of them an empty list.
Records without a path are remembered but not sent.
-/
namespace JsonnetLens

/-- What the client is told: the records of one document, in place of those it had. -/
structure Publication where
  uri : Text
  records : List Record
  deriving DecidableEq, Repr

def Publication.diagnostics (p : Publication) : List Diagnostic := p.records.map Record.toDiagnostic

structure Publisher where
  /-- The paths published since the last clear, without repetitions. -/
  published : List (Option Text) := []
  /-- What was sent, in order. -/
  sent : List Publication := []
  deriving Repr

namespace Publisher

def publish (path : Option Text) (records : List Record) : Attempt Publisher Unit :=
  match path with
  | none => pure ()
  | some path =>
    match FileUri.ofPath? path with
    | .error fault => throw (.badHost fault)
    | .ok uri => modify fun p => { p with sent := p.sent ++ [⟨uri, records⟩] }

def set (path : Option Text) (records : List Record) : Attempt Publisher Unit := do
  publish path records
  modify fun p =>
    { p with published := if p.published.contains path then p.published else p.published ++ [path] }

def delete (path : Option Text) : Attempt Publisher Unit := do
  publish path []
  modify fun p => { p with published := p.published.filter (· ≠ path) }

/-- Paths by scalar value. -/
def pathLe (a b : Option Text) : Bool :=
  match a, b with
  | none, _ => true
  | some _, none => false
  | some a, some b => Text.le a b

/-- The published paths in order; a missing path cannot be put in order with others. -/
def ordered (published : List (Option Text)) : Except Fault (List (Option Text)) :=
  if published.contains none && published.length > 1 then .error .wrongKind
  else .ok (published.mergeSort pathLe)

def clearAll : Attempt Publisher Unit := do
  match ordered (← get).published with
  | .error fault => throw fault
  | .ok paths => paths.forM fun path => publish path []
  modify fun p => { p with published := [] }

end Publisher
end JsonnetLens
