import JsonnetLens.Session
import JsonnetLens.Settings.Environment
import JsonnetLens.Uri.Preview
/-!
# The server of an editor

The server keeps the documents that the editor has open, one session for all of them, and the
messages it sends to the editor.  A configuration takes effect as a whole or, when it is refused,
not at all.
-/
namespace JsonnetLens

/-- A document that the editor has open, with the language it was opened as. -/
structure OpenDocument where
  document : Document
  language : Option Text
  deriving DecidableEq, Repr

/-- What the server sends to the editor. -/
inductive Message where
  | publication (p : Publication)
  | log (m : LogMessage)
  deriving DecidableEq, Repr

structure EditorServer where
  environ : Environ
  session : Session Shell Publisher
  /-- The open documents by their decoded URIs. -/
  documents : Table Text OpenDocument := []
  sent : List Message := []

namespace EditorServer

/-- The language whose documents are compiled. -/
def language : Text := "jsonnet".toList

/-- The name of the configuration section; without it the whole configuration is the section. -/
def configurationSection : Text := "jsonnet".toList

/-- A server that has just been started. -/
def launch [Nesting] (environ : Environ) (fates : List Fate) : Except Fault EditorServer := do
  let settings ← Settings.withEnviron {} environ
  return {
    environ
    session := {
      cache := { compiler := { settings, fates }, settings }
      reporter := { sink := {} } } }

/-- Puts the session back and sends what it published. -/
def setSession (session : Session Shell Publisher) (s : EditorServer) : EditorServer :=
  let publisher := session.reporter.sink
  { s with
    session :=
      { session with
        reporter := { session.reporter with sink := { publisher with sent := [] } } }
    sent := s.sent ++ publisher.sent.map Message.publication }

def onSession {α : Type} (x : Attempt (Session Shell Publisher) α) : Attempt EditorServer α :=
  Attempt.onPart EditorServer.session setSession x

def log (m : LogMessage) : Attempt EditorServer Unit :=
  modify fun s => { s with sent := s.sent ++ [.log m] }

/-! ## Configuration -/

def configurationOf (fields : Table WideText Json) : Json :=
  (Table.get? (WideText.ofText configurationSection) fields).getD (.object fields)

/-- Settings take effect for the cache and the compiler together. -/
def applySettings (settings : Settings) (s : EditorServer) : EditorServer :=
  let cache := s.session.cache
  { s with
    session :=
      { s.session with
        cache := { cache with settings, compiler := { cache.compiler with settings } } } }

/-- Takes a configuration; what is no object says nothing. -/
def configure [Nesting] (config : Json) : Attempt EditorServer Unit := do
  match config with
  | .object fields =>
    let plain ← (Settings.ofConfig (configurationOf fields) : Except Fault _)
    let settings ← (plain.withEnviron (← get).environ : Except Fault _)
    modify (applySettings settings)
    log ⟨.debug, "settings: ".toList ++ settings.display⟩
  | _ => pure ()

/-! ## Documents -/

def documentOf (uri : Text) : Except Fault Document :=
  match FileUri.documentPath? uri with
  | .ok path => .ok { uri, path }
  | .error fault => .error (.badHost fault)

def documentKey (uri : Text) : Text := Percent.unquote uri

/-- The open document under a URI, or one that nobody has opened. -/
def find (uri : Text) : Attempt EditorServer OpenDocument := do
  match (← get).documents.get? (documentKey uri) with
  | some found => return found
  | none => return { document := ← (documentOf uri : Except Fault _), language := none }

variable (tree : FileTree)

def didOpen (uri languageId : Text) : Attempt EditorServer Unit := do
  let document ← (documentOf uri : Except Fault _)
  modify fun s =>
    { s with documents := s.documents.insert (documentKey uri) ⟨document, some languageId⟩ }
  if languageId = language then
    match ← onSession (Session.open tree document) with
    | .accepted => pure ()
    | .rejected _ message => log message

/-- Whether saving a document opened as some language compiles it. -/
def compiles (languageId : Option Text) : Bool :=
  match languageId with
  | none => true
  | some t => t.isEmpty || t = language

def didSave (uri : Text) : Attempt EditorServer Unit := do
  let found ← find uri
  if compiles found.language then
    match ← onSession (Session.save tree found.document) with
    | .accepted => pure ()
    | .rejected _ message => log message

def didClose (uri : Text) : Attempt EditorServer Unit := do
  modify fun s => { s with documents := s.documents.erase (documentKey uri) }
  let found ← find uri
  onSession (Session.close found.document)

/-! ## Commands -/

/-- The preview page of the document behind the first argument. -/
def preview [Nesting] : (arguments : List Text) → Attempt EditorServer (Option Text)
  | [] => pure none
  | uri :: _ => do
    let source ← ((PreviewUri.sourceOf? uri).mapError Fault.badHost : Except Fault _)
    let found ← find source
    let rendering ← onSession (Session.render tree found.document)
    match rendering.log with
    | none => pure ()
    | some message => log message
    return some rendering.page

/-- The preview URI of the document that the first argument names. -/
def previewUri : (arguments : List Text) → Attempt EditorServer (Option Text)
  | [] => pure none
  | uri :: _ => do
    return some (← ((PreviewUri.canonical? uri).mapError Fault.badHost : Except Fault _))

def shutdown : Attempt EditorServer Unit := modify fun s => { s with session := s.session.shutdown }

end EditorServer
end JsonnetLens
