import ScriptCheck.Diagnostic
import ScriptCheck.Scope
import ScriptCheck.Token.Stream
import ScriptCheck.Ty.Basic
import ScriptCheck.TypeRef

/-!
Names of types and what they stand for. A registry starts with the intrinsic names other than
`Array`, which takes an argument and is known everywhere. A type reference becomes a type when every
name in it is known and every key of an index signature is `string` or `int`.
-/

namespace ScriptCheck

/-- The type names in scope. -/
structure Registry where
  scopes : ScopeStack Ty

namespace Registry

/-- Declares a name in the innermost scope. -/
def declare (r : Registry) (name : String) (t : Ty) : Registry := ⟨r.scopes.insert name t⟩

/-- The intrinsic names. -/
def intrinsic : Registry :=
  (intrinsicTypeNames.filter (· ≠ "Array")).foldl (fun r name => r.declare name (.singular name))
    ⟨.empty⟩

/-- What a name stands for. -/
def get? (r : Registry) (name : String) : Option Ty := (r.scopes.lookup name).map Prod.snd

/-- Whether a name is known. -/
def contains (r : Registry) (name : String) : Bool := name == "Array" || (r.get? name).isSome

/-- Opens a scope. -/
def push (r : Registry) : Registry := ⟨r.scopes.push⟩

/-- Closes the innermost scope, unless it is the global one. -/
def pop (r : Registry) : Registry := ⟨r.scopes.pop⟩

/-- Closes every scope but the global one. -/
def truncate (r : Registry) : Registry := ⟨r.scopes.truncate⟩

/-- What a name stands for with the given arguments. -/
def resolve (r : Registry) (name : String) (args : List Ty) (span : Span) :
    Except Diagnostic Ty :=
  if name = "Array" then
    if args.isEmpty then .ok (.array (some .any)) else .ok (.generic name args)
  else match r.get? name with
    | some t => if args.isEmpty then .ok t else .ok (.generic name args)
    | none => .error ⟨.unknownType name, span.start⟩

end Registry

/-- The key of an index signature. -/
def IndexKey.read (key : String) (span : Span) : Except Diagnostic IndexKey :=
  if key = "string" then .ok .string
  else if key = "int" then .ok .int
  else .error ⟨.invalidIndexSignature key, span.start⟩

namespace TypeRef

mutual

/-- The type that a reference stands for. -/
def toTy (r : Registry) : TypeRef → Except Diagnostic Ty
  | .named name args span => do r.resolve name (← allToTy r args) span
  | .array element _ => do return .array (some (← toTy r element))
  | .union members _ => do return .unionOf (← allToTy r members)
  | .intersection members _ => do return .intersectionOf (← allToTy r members)
  | .interface props index _ => do
    let props ← propsToTy r props
    let index ← indexToTy r index
    return .interface ⟨none, props, index⟩
  | .function params result _ => do
    let params ← paramsToTy r params
    let result ← toTy r result
    return .fn params result
  | .literal value _ => .ok (.literal value)
termination_by structural t => t

/-- The types that references stand for. -/
def allToTy (r : Registry) : List TypeRef → Except Diagnostic (List Ty)
  | [] => .ok []
  | t :: ts => do
    let head ← toTy r t
    let rest ← allToTy r ts
    return head :: rest
termination_by structural ts => ts

/-- The properties that references stand for. -/
def propsToTy (r : Registry) : List (PropertyRef TypeRef) → Except Diagnostic (List (Property Ty))
  | [] => .ok []
  | ⟨name, type, writable⟩ :: ps => do
    let t ← toTy r type
    let rest ← propsToTy r ps
    return ⟨name, t, writable⟩ :: rest
termination_by structural ps => ps

/-- The index signatures that references stand for. A key is looked at before its type. -/
def indexToTy (r : Registry) : List (IndexRef TypeRef) → Except Diagnostic (List (IndexKey × Ty))
  | [] => .ok []
  | ⟨key, keySpan, type⟩ :: is => do
    let k ← IndexKey.read key keySpan
    let t ← toTy r type
    let rest ← indexToTy r is
    return (k, t) :: rest
termination_by structural is => is

/-- The parameters that references stand for. -/
def paramsToTy (r : Registry) : List (ParamRef TypeRef) → Except Diagnostic (List (String × Ty))
  | [] => .ok []
  | ⟨name, type⟩ :: ps => do
    let t ← toTy r type
    let rest ← paramsToTy r ps
    return (name, t) :: rest
termination_by structural ps => ps

end

end TypeRef

end ScriptCheck
