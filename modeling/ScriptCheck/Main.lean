import ScriptCheck.CommandLine

/-!
The program: reads the files named on the command line and prints what the run leaves behind.
-/

open ScriptCheck

/-- The content of a file of the file system, or why it cannot be read. -/
def ScriptCheck.CommandLine.readSource (path : String) : IO (Except FileError String) := do
  try
    return .ok (← IO.FS.readFile path)
  catch
    | .inappropriateType _ code _ =>
      return .error (if code = 20 then .notDirectory else .isDirectory)
    | _ => return .error .missing

/-- Runs the checker on its arguments. -/
def main (args : List String) : IO UInt32 := do
  match CommandLine.Options.read? args with
  | none =>
    IO.eprintln "usage: scriptcheck [--dump-types] [--record-errors] FILE..."
    return 2
  | some options =>
    let sources ← options.files.mapM fun path => do
      return (path, ← CommandLine.readSource path)
    let read (path : String) : Except FileError String :=
      (sources.lookup path).getD (.error .missing)
    let output := CommandLine.run options read
    IO.print output.stdout
    IO.eprint output.stderr
    return output.code.toUInt32
