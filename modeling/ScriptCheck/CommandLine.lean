import ScriptCheck.Diagnostic.Excerpt
import ScriptCheck.FileTree
import ScriptCheck.Session

/-!
The command line: files are checked one after the other, each in a session of its own. The first
file that fails ends the run, unless errors are recorded; then all excerpts are shown at the end,
and how many files failed.
-/

namespace ScriptCheck.CommandLine

/-- What is asked for. -/
structure Options where
  files : List String
  dumpTypes : Bool
  recordErrors : Bool
deriving DecidableEq

namespace Options

/-- Nothing is asked for yet. -/
def none : Options := ⟨[], false, false⟩

/-- Reads arguments in order. Behind `--` every argument is a file; a flag may stand once. -/
def readFrom : Options → List String → Option Options
  | o, [] => some o
  | o, arg :: rest =>
    if arg = "--" then some { o with files := o.files ++ rest }
    else if arg = "--dump-types" then
      if o.dumpTypes then Option.none else readFrom { o with dumpTypes := true } rest
    else if arg = "--record-errors" then
      if o.recordErrors then Option.none else readFrom { o with recordErrors := true } rest
    else if arg.startsWith "-" && arg ≠ "-" then Option.none
    else readFrom { o with files := o.files ++ [arg] } rest

/-- Reads arguments, among which there has to be a file. No file has an empty path. -/
def read? (args : List String) : Option Options :=
  match readFrom none args with
  | some o => if o.files.isEmpty || o.files.contains "" then Option.none else some o
  | _ => Option.none

/-- What a session does with errors. -/
def mode (o : Options) : ErrorMode := if o.recordErrors then .record else .report

end Options

/-- What a run leaves behind. -/
structure Output where
  code : Nat
  stdout : String
  stderr : String
deriving DecidableEq

/-- What has been written and counted so far. -/
structure Progress where
  stdout : String
  stderr : String
  /-- The excerpts that are shown at the end. -/
  recorded : String
  failed : Nat

namespace Progress

/-- Nothing is written yet. -/
def start : Progress := ⟨"", "", "", 0⟩

/-- Writes to the standard error and counts a failure. -/
def fail (p : Progress) (text : String) : Progress :=
  { p with stderr := p.stderr ++ text, failed := p.failed + 1 }

/-- Keeps an excerpt for the end and counts a failure. -/
def keep (p : Progress) (excerpt : String) : Progress :=
  { p with recorded := p.recorded ++ excerpt, failed := p.failed + 1 }

/-- The output of a run that stops at a failure. -/
def stopped (p : Progress) : Output := ⟨1, p.stdout, p.stderr⟩

/-- The output of a run that has seen all files. -/
def finished (p : Progress) (o : Options) : Output :=
  let count :=
    if o.recordErrors then s!"{p.failed} of {o.files.length} files failed to check\n" else ""
  ⟨if p.failed = 0 then 0 else 1, p.stdout, p.stderr ++ p.recorded ++ count⟩

end Progress

/-- The name under which a file is reported: the last component of its path. -/
def reportedName (path : String) : String := (fileName? path).getD path

/-- The summaries of a program below its name. -/
def dump (name : String) (program : CheckedProgram) : String :=
  program.statements.foldl (fun out s => out ++ "  " ++ s.summary ++ "\n") (name ++ ":\n")

/-- Checks one file; `false` says that it failed. -/
def checkFile (o : Options) (p : Progress) (path content : String) : Bool × Progress :=
  let name := reportedName path
  match ((Session.new o.mode).check content name).1 with
  | .ok program =>
    (true, if o.dumpTypes then { p with stdout := p.stdout ++ dump name program } else p)
  | .error (.rejected d) =>
    let excerpt := d.excerpt content
    (false, if o.recordErrors then p.keep excerpt else p.fail excerpt)
  | .error .stuck => (false, p.fail "")

/-- Checks the files in order. -/
def checkFiles (o : Options) (read : String → Except FileError String) :
    Progress → List String → Output
  | p, [] => p.finished o
  | p, path :: rest =>
    let (passed, p) :=
      match read path with
      | .ok content => checkFile o p path content
      | .error e => (false, p.fail s!"Error: could not read `{path}`: {e.message}\n")
    if passed || o.recordErrors then checkFiles o read p rest else p.stopped

/-- The whole run. -/
def run (o : Options) (read : String → Except FileError String) : Output :=
  checkFiles o read .start o.files

end ScriptCheck.CommandLine
