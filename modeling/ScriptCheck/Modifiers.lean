/-!
Modifiers of class members. A modifier may be written more than once and in any order; only whether
it stands there counts.
-/

namespace ScriptCheck

/-- The modifiers of a class member. -/
structure Modifiers where
  isPublic : Bool
  isPrivate : Bool
  isStatic : Bool
  isConst : Bool
deriving DecidableEq

/-- No modifier. -/
def Modifiers.none : Modifiers := ⟨false, false, false, false⟩

/-- Only `public`. -/
def Modifiers.public : Modifiers := ⟨true, false, false, false⟩

end ScriptCheck
