import JsonnetLens.CommandLine.Program
import JsonnetLens.Json.Field
/-!
# Recordings of the outside world

A recording is a JSON object that says what a run of the program finds: the current directory `cwd`,
the regular files `files`, the `denied` directories, the variables `env`, and the fates of the
`processes` that it starts.  All fields are optional.
-/
namespace JsonnetLens

/-- The bytes that pairs of hexadecimal digits write. -/
def bytesOfHex : Text → List UInt8
  | a :: b :: rest =>
    match Hex.value? a, Hex.value? b with
    | some high, some low => UInt8.ofNat (16 * high + low) :: bytesOfHex rest
    | _, _ => bytesOfHex rest
  | _ => []

/-- The bytes of an output stream, given in hexadecimal or as text. -/
def recordedBytes (hexName name : String) (j : Json) : List UInt8 :=
  match j.textField? hexName with
  | some digits => bytesOfHex digits
  | none => Utf8.encode (j.textField name)

def Fate.ofRecording (j : Json) : Fate :=
  if j.isMarked "missing" then .missing
  else
    match j.textField? "oserror" with
    | some reason => .refused reason
    | none =>
      if j.isMarked "hang" then .outlasts
      else
        .runs (j.intField "returncode") (recordedBytes "stdout_hex" "stdout" j)
          (recordedBytes "stderr_hex" "stderr" j)

def FileTree.ofRecording (j : Json) : FileTree :=
  { currentDirectory := (j.textField? "cwd").getD "/work".toList
    files := j.textsField "files"
    denied := j.textsField "denied" }

def CommandLine.World.ofRecording (j : Json) : CommandLine.World :=
  { tree := .ofRecording j
    environ := ((j.field? "env").map Json.textTable).getD []
    fates := (j.itemsField "processes").map .ofRecording }

end JsonnetLens
