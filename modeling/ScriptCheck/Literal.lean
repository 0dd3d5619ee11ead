import ScriptCheck.Number.Writing
import ScriptCheck.Text.Quoted

/-!
Literal values of the language: integers of 64 bits, floating-point numbers, texts and truth values.
-/

namespace ScriptCheck

/-- A value written out in a program. -/
inductive Literal where
  | int (value : Int)
  | float (value : Binary64)
  | text (value : String)
  | bool (value : Bool)
deriving DecidableEq

namespace Literal

/-- Equality of values. It differs from equality of literals on NaN and on the zeros. -/
def same : Literal → Literal → Bool
  | .int a, .int b => a == b
  | .float a, .float b => a.same b
  | .text a, .text b => a == b
  | .bool a, .bool b => a == b
  | _, _ => false

/-- The name of the type that holds all literals of this kind. -/
def widenedName : Literal → String
  | .int _ => "int"
  | .float _ => "float"
  | .text _ => "string"
  | .bool _ => "bool"

/-- The written form of a literal. -/
def display : Literal → String
  | .int n => String.ofList (intText n)
  | .float x => String.ofList x.text
  | .text s => Text.quote s
  | .bool true => "true"
  | .bool false => "false"

end Literal

end ScriptCheck
