import JsonnetLens.Preview.Page
import JsonnetLens.Diagnostic.Reporter
/-!
# Sessions

A session owns a cache of previews and a reporter.  Opening or saving a document compiles it and
reports what went wrong; closing it drops its preview and its diagnostics.  The work after the
compiler has been called is a half of its own, as in the cache.
-/
namespace JsonnetLens

/-- Levels of messages, numbered as the protocol does. -/
inductive Level where
  | warning
  | info
  | debug
  deriving DecidableEq, Repr

def Level.number : Level → Nat
  | .warning => 2
  | .info => 3
  | .debug => 5

structure LogMessage where
  level : Level
  text : Text
  deriving DecidableEq, Repr

/-- What compiling an opened or saved document comes to. -/
inductive Verdict where
  | accepted
  | rejected (batch : Batch) (log : LogMessage)
  deriving DecidableEq, Repr

/-- A preview page and what is to be logged about it. -/
structure Rendering where
  page : Text
  log : Option LogMessage
  deriving DecidableEq, Repr

structure Session (ι σ : Type) where
  cache : PreviewCache ι
  reporter : Reporter σ

namespace Session

variable {ι σ : Type}

def onCache {α : Type} (x : Attempt (PreviewCache ι) α) : Attempt (Session ι σ) α :=
  Attempt.onPart Session.cache (fun cache s => { s with cache }) x

def onReporter {α : Type} (x : Attempt (Reporter σ) α) : Attempt (Session ι σ) α :=
  Attempt.onPart Session.reporter (fun reporter s => { s with reporter }) x

def rejection (document : Document) (batch : Batch) : LogMessage :=
  ⟨.info, "Compilation of '".toList ++ document.path ++ "' failed, ".toList ++
    Text.ofNat batch.records.length ++ " location(s) reported.".toList⟩

/-- Reports what the cache holds for a document. -/
def judge [Sink σ] (document : Document) : Attempt (Session ι σ) Verdict := do
  match (← get).cache.get? document with
  | some (.failed failure) =>
    let batch ← onReporter (Reporter.report document.uri failure.error failure.directory)
    return .rejected batch (rejection document batch)
  | _ =>
    onReporter (Reporter.clear document.uri)
    return .accepted

/-- The second half of opening a document. -/
def finishOpen [Sink σ] (document : Document) (ticket : Ticket) : Attempt (Session ι σ) Verdict := do
  let _ ← onCache (PreviewCache.redeem ticket)
  judge document

def renderFailure (document : Document) : LogMessage :=
  ⟨.warning, "Could not render '".toList ++ document.path ++ "'.".toList⟩

/-- The second half of rendering a document. -/
def finishRender [Nesting] (document : Document) (ticket : Ticket) : Attempt (Session ι σ) Rendering := do
  let _ ← onCache (PreviewCache.redeem ticket)
  let cache := (← get).cache
  let entry := cache.get? document
  let page ← (Page.render entry cache.settings.outputFormat : Except Fault _)
  let log :=
    match entry with
    | some (.failed _) => some (renderFailure document)
    | _ => none
  return { page, log }

section
variable [Compiler ι] [Sink σ]

/-- The first half of opening or rendering a document. -/
def start (tree : FileTree) (document : Document) : Attempt (Session ι σ) Ticket :=
  onCache (PreviewCache.start tree document)

/-- Drops the preview of a document, so that the next one is compiled anew. -/
def forget (document : Document) : Attempt (Session ι σ) Unit :=
  modify fun s => { s with cache := s.cache.delete document }

def «open» (tree : FileTree) (document : Document) : Attempt (Session ι σ) Verdict := do
  finishOpen document (← start tree document)

def save (tree : FileTree) (document : Document) : Attempt (Session ι σ) Verdict := do
  forget document
  Session.open tree document

def close (document : Document) : Attempt (Session ι σ) Unit := do
  forget document
  onReporter (Reporter.clear document.uri)

def render [Nesting] (tree : FileTree) (document : Document) : Attempt (Session ι σ) Rendering := do
  finishRender document (← start tree document)

end

def updateSettings (settings : Settings) (s : Session ι σ) : Session ι σ :=
  { s with cache := { s.cache with settings } }

def shutdown (s : Session ι σ) : Session ι σ := { s with cache := s.cache.close }

end Session
end JsonnetLens
