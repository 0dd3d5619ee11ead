import ScriptCheck.Ty.Basic

/-!
Names that every program knows: the built-in functions, and `Math` with its constants and functions.
-/

namespace ScriptCheck

namespace Intrinsic

open Ty (any int float string bool void fn number)

/-- A function of one number. -/
def unaryMath : Ty := fn [("value", number)] float

/-- A function of two numbers. -/
def binaryMath : Ty := fn [("a", number), ("b", number)] float

/-- A rounding function. -/
def roundingMath : Ty := fn [("value", float)] int

/-- The members of `Math`. -/
def mathMembers : List (String × Ty) :=
  [("PI", float), ("E", float), ("floor", roundingMath), ("ceil", roundingMath),
   ("round", roundingMath), ("abs", unaryMath), ("sqrt", unaryMath), ("random", fn [] float),
   ("min", binaryMath), ("max", binaryMath)]

/-- The type of `Math`, whose members cannot be written to. -/
def math : Ty := .interface ⟨some "Math", mathMembers.map fun m => ⟨m.1, m.2, false⟩, []⟩

/-- Every intrinsic name with its type. -/
def all : List (String × Ty) :=
  [("print", fn [("value", any)] void),
   ("eval", fn [("code", string)] any),
   ("len", fn [("value", any)] int),
   ("typeOf", fn [("value", any)] string),
   ("str", fn [("value", any)] string),
   ("input", fn [("prompt", string)] string),
   ("assert", fn [("condition", bool)] void),
   ("Math", math)]

end Intrinsic

end ScriptCheck
