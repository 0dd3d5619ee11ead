import ScriptCheck.Diagnostic
import ScriptCheck.Source.Line
import ScriptCheck.Text.Blank

/-!
Excerpts: a diagnostic shown together with the line it points at. Below a header and the name of the
file stands the line without its indentation, and below the line a caret. The caret's place is
counted in bytes from the start of the line, less the spaces that were taken off.
-/

namespace ScriptCheck.Diagnostic

/-- The header of an excerpt: stage, name and, if there is one, the tip. -/
def header (d : Diagnostic) : String :=
  match d.cause.tip? with
  | none => s!"{d.stage.label}: {d.cause.name}"
  | some tip => s!"{d.stage.label}: {d.cause.name} ({tip})"

/-- Text written to the right end of a field, after as many fill characters as it takes. -/
def padLeft (fill : Char) (width : Nat) (text : List Char) : List Char :=
  List.replicate (width - text.length) fill ++ text

/-- The three rows that show a place in a line. -/
def rows (place : LinePlace) : List Char :=
  let number := (toString place.number).toList
  let margin := padLeft ' ' (number.length + 2) ['|']
  let indent := (place.text.takeWhile (· = ' ')).length
  let shown := Text.trimEnd (place.text.drop indent)
  let caret := padLeft '-' (place.column - indent + 1) ['^']
  margin ++ '\n' :: number ++ ' ' :: '|' :: ' ' :: shown ++ '\n' ::
    margin ++ ' ' :: caret ++ ['\n']

/-- The excerpt of a diagnostic in the text it is about. Outside of the text only the header and the
file are shown. -/
def excerpt (d : Diagnostic) (content : String) : String :=
  let top := d.header ++ "\n-> " ++ d.position.file ++ "\n"
  match lineAt content d.position.offset with
  | none => top
  | some place => top ++ String.ofList (rows place)

end ScriptCheck.Diagnostic
