import Formula.CommandLine.Run

/-!
The program: reads its arguments, its environment and at most one file, and writes what a run comes
to.
-/

open Formula.CommandLine

def Formula.CommandLine.readText (path : String) : IO (Option String) := do
  try
    pure (some (← IO.FS.readFile path))
  catch _ => pure none

/-- The text of the file that the arguments name, if they name one. -/
def Formula.CommandLine.requestedText (arguments : List String) : IO (Option String) :=
  match request .none arguments with
  | .ok ⟨_, .file path, _⟩ => readText path
  | _ => pure none

def main (arguments : List String) : IO UInt32 := do
  let text ← requestedText arguments
  let report := run (← IO.getEnv filterVariable) (fun _ => text) arguments
  for line in report.log ++ report.notices do
    IO.eprintln line
  if let some failure := report.failure then
    IO.eprintln failure.message
    if let some help := failure.help then
      IO.eprintln help
  IO.print report.output
  pure (UInt32.ofNat report.exitCode)
