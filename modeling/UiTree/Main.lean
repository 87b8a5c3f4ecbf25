import UiTree.CommandLine

/-!
# UiTree.Main -- the program

Reads the command line and the environment, prints what is to be printed, and returns the exit code.
-/

namespace UiTree.CommandLine

/-- The variables of the environment that set something. -/
def readEnvironment : IO Datum := do
  let fields ← Settings.names.filterMapM fun name => do
    let variableName := Settings.variableStart ++ name.map Char.toUpper
    let value ← IO.getEnv (String.ofList variableName)
    return value.map fun v => (variableName, Datum.text v.toList)
  return .record fields

/-- One complaint about a setting in a line. -/
def complaintLine (c : Complaint) : Text :=
  let place := c.place.map fun s =>
    match s with
    | .field name => name
    | .item i => Text.ofNat i
  Text.join ['.'] place ++ ':' :: ' ' :: c.kind.name ++ ['\n']

/-- Starts from a command line. -/
def run (words : List Text) : IO UInt32 := do
  match start words (← readEnvironment) with
  | .helped =>
    IO.print (String.ofList help)
    return 0
  | .misused m =>
    IO.eprint (String.ofList (refusal m))
    return 2
  | .invalid complaints =>
    IO.eprint (String.ofList (complaints.flatMap complaintLine))
    return 1
  | .started settings =>
    IO.print (String.ofList (announcement settings))
    return 0

end UiTree.CommandLine

/-- The program. -/
def main (args : List String) : IO UInt32 :=
  UiTree.CommandLine.run (args.map String.toList)
