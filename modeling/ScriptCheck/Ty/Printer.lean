import ScriptCheck.Ty.Basic

/-!
The written form of types. Declared types are written by name, the type of an object by its
properties; the empty union and the element of an array that holds nothing yet are written `never`.
-/

namespace ScriptCheck

/-- Texts with a separator between them. -/
def joinWith (separator : String) : List String → String
  | [] => ""
  | [s] => s
  | s :: rest => s ++ separator ++ joinWith separator rest

/-- An interface without a name, from its written entries. -/
def bracedEntries (entries : List String) : String :=
  if entries.isEmpty then "\x7b\x7d" else "\x7b " ++ joinWith ", " entries ++ " \x7d"

namespace Ty

mutual

/-- The written form of a type. -/
def display : Ty → String
  | .named name args =>
    if args.isEmpty then name else name ++ "<" ++ joinWith ", " (displayAll args) ++ ">"
  | .union members => if members.isEmpty then "never" else joinWith " | " (displayAll members)
  | .array element => "Array<" ++ displayElement element ++ ">"
  | .interface ⟨name, props, index⟩ =>
    match name with
    | some name => name
    | none => bracedEntries (displayProps props ++ displayIndex index)
  | .function ⟨params, result⟩ =>
    "(" ++ joinWith ", " (displayParams params) ++ ") :: " ++ display result
  | .classType ⟨name, _, _, _⟩ => name
  | .literal value => value.display
  | .intersection members => joinWith " & " (displayAll members)
termination_by structural t => t

/-- The written forms of types. -/
def displayAll : List Ty → List String
  | [] => []
  | t :: ts => display t :: displayAll ts
termination_by structural ts => ts

/-- The written form of the element of an array. -/
def displayElement : Option Ty → String
  | none => "never"
  | some t => display t
termination_by structural t => t

/-- The written forms of properties. -/
def displayProps : List (Property Ty) → List String
  | [] => []
  | ⟨name, type, writable⟩ :: ps =>
    ((if writable then "" else "const ") ++ name ++ ": " ++ display type) :: displayProps ps
termination_by structural ps => ps

/-- The written forms of index signatures. -/
def displayIndex : List (IndexKey × Ty) → List String
  | [] => []
  | (key, type) :: is => ("[" ++ key.display ++ "]: " ++ display type) :: displayIndex is
termination_by structural is => is

/-- The written forms of parameters. -/
def displayParams : List (String × Ty) → List String
  | [] => []
  | (name, type) :: ps => (display type ++ " " ++ name) :: displayParams ps
termination_by structural ps => ps

end

end Ty

end ScriptCheck
