import JsonnetLens.Preview.Cache
import JsonnetLens.Text.Entity
import JsonnetLens.Json.Writer
import JsonnetLens.Yaml.Document
/-!
# Preview pages

A compiled document is shown as YAML or indented JSON in the body of an HTML page, a failed one as
its error text.  Output that is no JSON is shown as it is; output that nests too deep to be read or
written is not shown.
-/
namespace JsonnetLens.Page

def body (content : Text) : Text :=
  "<html><body>".toList ++ content ++ "</body></html>".toList

def code (text : Text) : Text :=
  "<pre><code>".toList ++ Entity.escape text ++ "</code></pre>".toList

def errorMessage (text : Text) : Text :=
  "<i><pre>".toList ++ Entity.escape text ++ "</pre></i>".toList

def writeValue (value : Json) : OutputFormat → Text
  | .yaml => Yaml.document value
  | .json => value.indented

variable [Nesting]

/-- Whether there is room to write a value.  What stands innermost takes a level as well, and a float in
JSON takes two. -/
def fits (value : Json) : OutputFormat → Bool
  | .yaml => value.levels (fun _ => 1) ≤ Nesting.yaml
  | .json => value.levels (fun | .float _ => 2 | _ => 1) ≤ Nesting.json

/-- Compiler output in the wanted format. -/
def format (text : Text) (format : OutputFormat) : Except Fault Text := do
  let value ← (Json.read text).mapError Fault.ofReadError
  if fits value format then return writeValue value format else throw .tooDeep

/-- Compiler output in the wanted format, or as it is when it is no JSON. -/
def formatOrKeep (text : Text) (outputFormat : OutputFormat) : Except Fault Text :=
  match format text outputFormat with
  | .error (.badJson _) => .ok text
  | formatted => formatted

def noPreview : Text := "No preview available.".toList

/-- The page for a cache entry. -/
def render (entry : Option Entry) (outputFormat : OutputFormat) : Except Fault Text :=
  match entry with
  | none => .ok (body (errorMessage noPreview))
  | some (.failed failure) => .ok (body (errorMessage failure.error))
  | some (.output text) => (formatOrKeep text outputFormat).map fun shown => body (code shown)

end JsonnetLens.Page
