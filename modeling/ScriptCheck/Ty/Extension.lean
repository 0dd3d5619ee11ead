import ScriptCheck.Ty.Basic

/-!
Built-in members of texts, numbers, ranges and arrays. They go before every other member of the
same name, and they cannot be written to.
-/

namespace ScriptCheck.Ty

/-- The built-in members of texts. -/
def stringMembers : List (String × Ty) :=
  [("length", int), ("upper", fn [] string), ("lower", fn [] string),
   ("split", fn [("separator", string)] (.array (some string))),
   ("contains", fn [("value", string)] bool)]

/-- The built-in members of numbers. -/
def numberMembers : List (String × Ty) := [("toString", fn [] string)]

/-- The built-in members of ranges. -/
def rangeMembers : List (String × Ty) :=
  [("start", int), ("end", int), ("contains", fn [("value", int)] bool),
   ("toArray", fn [] (.array (some int)))]

/-- The built-in members of arrays. -/
def arrayMembers (element : Ty) : List (String × Ty) :=
  [("length", int), ("push", fn [("value", element)] void), ("pop", fn [] element),
   ("join", fn [("separator", string)] string)]

/-- All built-in members of a type, which is widened first. -/
def extensions (t : Ty) : List (String × Ty) :=
  let object := t.widened
  match object.elementType? with
  | some element => arrayMembers element
  | none =>
    match object.nominalName? with
    | some "string" => stringMembers
    | some "int" | some "float" => numberMembers
    | some "Range" => rangeMembers
    | _ => []

/-- The type of a built-in member. -/
def extension? (t : Ty) (name : String) : Option Ty := t.extensions.lookup name

end ScriptCheck.Ty
