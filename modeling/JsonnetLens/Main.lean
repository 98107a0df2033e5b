import JsonnetLens.CommandLine.Recording
import JsonnetLens.Json.Reader
/-!
# The command line

The program takes its arguments from the command line and the outside world from a recording on the
first line of standard input.
-/
namespace JsonnetLens.CommandLine

/-- The run that a recording makes of some arguments. -/
def runRecorded [Nesting] (recording : Text) (arguments : List Text) : Except Fault Run := do
  let world ← (Json.read recording).mapError Fault.ofReadError
  run (.ofRecording world) arguments

end JsonnetLens.CommandLine

open JsonnetLens

def main (arguments : List String) : IO UInt32 := do
  let _ : Nesting := .usual
  let recording ← (← IO.getStdin).getLine
  match CommandLine.runRecorded recording.toList (arguments.map String.toList) with
  | .ok run =>
    IO.print (String.ofList run.stdout)
    IO.eprint (String.ofList run.stderr)
    return run.exitCode.toUInt32
  | .error fault =>
    IO.eprintln (String.ofList fault.message)
    return 1
