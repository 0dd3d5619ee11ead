import ScriptCheck.Literal
import ScriptCheck.Source.Position

/-!
Type references: types as they are written. Names in them are not yet known to mean anything.
-/

namespace ScriptCheck

/-- A property of an interface, `name: T` or `const name: T`. -/
structure PropertyRef (τ : Type) where
  name : String
  type : τ
  writable : Bool

/-- An index signature of an interface, `[key]: T`. The key is kept as it is written. -/
structure IndexRef (τ : Type) where
  key : String
  keySpan : Span
  type : τ

/-- A parameter of a function type, `T name`. -/
structure ParamRef (τ : Type) where
  name : String
  type : τ

/-- A type as it is written. -/
inductive TypeRef where
  | named (name : String) (args : List TypeRef) (span : Span)
  | array (element : TypeRef) (span : Span)
  | union (members : List TypeRef) (span : Span)
  | intersection (members : List TypeRef) (span : Span)
  | interface (props : List (PropertyRef TypeRef)) (index : List (IndexRef TypeRef)) (span : Span)
  | function (params : List (ParamRef TypeRef)) (result : TypeRef) (span : Span)
  | literal (value : Literal) (span : Span)

/-- Where a type is written. -/
def TypeRef.span : TypeRef → Span
  | .named _ _ s | .array _ s | .union _ s | .intersection _ s | .interface _ _ s
  | .function _ _ s | .literal _ s => s

end ScriptCheck
