import ScriptCheck.Ty.Basic

/-!
Assignability: whether a value of one type may stand where another type is expected. Unions and
intersections are taken apart first, the source before the target; classes are compared by name and
descent, interfaces by shape, functions by their parameters and results.
-/

namespace ScriptCheck

/-! ### Shapes -/

/-- What can be seen of an interface, a class or an intersection from outside: its properties and
its index signatures. -/
structure Shape where
  props : List (String × Ty)
  index : List (IndexKey × Ty)

namespace Shape

/-- Nothing to be seen. -/
def empty : Shape := ⟨[], []⟩

/-- The type of a property. -/
def property? (s : Shape) (name : String) : Option Ty :=
  (s.props.find? (·.1 == name)).map Prod.snd

/-- Adds an entry unless one with its key is there. -/
def addNew {κ : Type} [DecidableEq κ] (entries : List (κ × Ty)) (e : κ × Ty) : List (κ × Ty) :=
  if entries.any (·.1 == e.1) then entries else entries ++ [e]

/-- The first shape with those entries of the second whose keys it lacks. -/
def merge (a b : Shape) : Shape := ⟨b.props.foldl addNew a.props, b.index.foldl addNew a.index⟩

end Shape

namespace Ty

mutual

/-- The shape of a type. A class shows its members that are not private, then those of the class it
extends and of what it mixes in; an intersection shows what its members show, if all have a shape. -/
def shape? : Ty → Option Shape
  | .interface ⟨_, props, index⟩ => some ⟨props.map fun p => (p.name, p.type), index⟩
  | .classType ⟨_, members, mixins, superclass⟩ =>
    let own := (members.filter (!·.isPrivate)).map fun m => (m.name, m.type)
    let inherited := (optionShape? superclass).toList ++ shapes mixins
    some (inherited.foldl Shape.merge ⟨own, []⟩)
  | .intersection members => (allShapes? members).map (·.foldl Shape.merge .empty)
  | _ => none
termination_by structural t => t

/-- The shape of an optional type. -/
def optionShape? : Option Ty → Option Shape
  | some t => shape? t
  | none => none
termination_by structural t => t

/-- The shapes of those types of a list that have one. -/
def shapes : List Ty → List Shape
  | [] => []
  | t :: ts => (shape? t).toList ++ shapes ts
termination_by structural ts => ts

/-- The shapes of a list of types, if all have one. -/
def allShapes? : List Ty → Option (List Shape)
  | [] => some []
  | t :: ts =>
    match shape? t, allShapes? ts with
    | some s, some ss => some (s :: ss)
    | _, _ => none
termination_by structural ts => ts

end

end Ty

/-- Whether the first shape offers all that the second asks for: every property with a type that
goes into its type, and every index signature, where properties alone make up for a missing `string`
signature. -/
def Shape.satisfies (into : Ty → Ty → Bool) (source target : Shape) : Bool :=
  let props := target.props.all fun (name, t) =>
    match source.property? name with
    | some s => into s t
    | none => false
  let index := target.index.all fun (key, t) =>
    (source.index.any fun (own, s) => own == key && into s t) ||
      (key == .string && source.props.all fun (_, s) => into s t)
  props && index

/-! ### The relation -/

namespace Ty

/-- Whether two types have shapes of which the first satisfies the second. -/
def shapesSatisfy (into : Ty → Ty → Bool) (source target : Ty) : Bool :=
  match source.shape?, target.shape? with
  | some s, some t => s.satisfies into t
  | _, _ => false

/-- Assignability of types that are neither equal nor `any`, nor unions or intersections or
literals, nor both arrays; `into` decides for their parts. -/
def plainInto (into : Ty → Ty → Bool) (source target : Ty) : Bool :=
  match source, target with
  | .named name args, .named name' args' =>
    name == name' && (args.isEmpty || args'.isEmpty ||
      (args.length == args'.length && (args.zip args').all fun (s, t) => into s t))
  | .classType _, .named name _ => source.nominalName? == some name
  | .interface _, .named name _ => source.nominalName? == some name
  | .named name _, .classType _ => target.nominalName? == some name
  | .named name _, .interface _ => target.nominalName? == some name
  | .classType c, .classType c' =>
    c.name == c'.name || c.superclass.any (into · target) || c.mixins.any (into · target)
  | .classType _, .interface _ => shapesSatisfy into source target
  | .interface _, .interface _ => shapesSatisfy into source target
  | .function f, .function g =>
    decide (f.params.length ≤ g.params.length) &&
      ((f.params.zip g.params).all fun (s, t) => into t.2 s.2) && into f.result g.result
  | _, _ => false

/-- Assignability of types that are neither equal nor `any`, nor unions, and of which the target is
no intersection. -/
def elementInto (into : Ty → Ty → Bool) (source target : Ty) : Bool :=
  match source with
  | .intersection members => members.any (into · target) || shapesSatisfy into source target
  | .literal v => target.isNamed v.widenedName
  | _ =>
    match source.arrayElement?, target.arrayElement? with
    | some (some s), some (some t) => into s t
    | some _, some _ => true
    | _, _ => plainInto into source target

/-- One step of assignability; `into` decides for smaller types. -/
def intoStep (into : Ty → Ty → Bool) (source target : Ty) : Bool :=
  if source.same target || source.isAny || target.isAny then true
  else
    match source with
    | .union members => members.all (into · target)
    | _ =>
      match target with
      | .union members => members.any (into source ·)
      | .intersection members => members.all (into source ·)
      | _ => elementInto into source target

mutual

/-- The number of types that a type is made of. -/
def size : Ty → Nat
  | .named _ args => 1 + sizeAll args
  | .union members => 1 + sizeAll members
  | .array element => 1 + sizeOption element
  | .interface ⟨_, props, index⟩ => 1 + sizeProps props + sizeIndex index
  | .function ⟨params, result⟩ => 1 + sizeParams params + size result
  | .classType ⟨_, members, mixins, superclass⟩ =>
    1 + sizeMembers members + sizeAll mixins + sizeOption superclass
  | .literal _ => 1
  | .intersection members => 1 + sizeAll members
termination_by structural t => t

/-- The number of types that types are made of. -/
def sizeAll : List Ty → Nat
  | [] => 0
  | t :: ts => size t + sizeAll ts
termination_by structural ts => ts

/-- The number of types that an optional type is made of. -/
def sizeOption : Option Ty → Nat
  | none => 0
  | some t => size t
termination_by structural t => t

/-- The number of types that properties are made of. -/
def sizeProps : List (Property Ty) → Nat
  | [] => 0
  | ⟨_, t, _⟩ :: ps => size t + sizeProps ps
termination_by structural ps => ps

/-- The number of types that index signatures are made of. -/
def sizeIndex : List (IndexKey × Ty) → Nat
  | [] => 0
  | (_, t) :: is => size t + sizeIndex is
termination_by structural is => is

/-- The number of types that parameters are made of. -/
def sizeParams : List (String × Ty) → Nat
  | [] => 0
  | (_, t) :: ps => size t + sizeParams ps
termination_by structural ps => ps

/-- The number of types that class members are made of. -/
def sizeMembers : List (Member Ty) → Nat
  | [] => 0
  | ⟨_, t, _, _⟩ :: ms => size t + sizeMembers ms
termination_by structural ms => ms

end

/-- Assignability decided in no more nested steps than the fuel. -/
def intoWithin : Nat → Ty → Ty → Bool
  | 0, _, _ => false
  | fuel + 1, source, target => intoStep (intoWithin fuel) source target

/-- Whether a value of the first type may stand where the second is expected. Every step goes to
types that are smaller together, so that the sum of the sizes bounds the steps. -/
def isAssignableTo (source target : Ty) : Bool :=
  intoWithin (source.size + target.size) source target

/-- Whether a type has the one value that stands for nothing. -/
def isNothing (t : Ty) : Bool := t.isNamed "null" || t.isNamed "undefined"

/-- Whether values of two types can be equal: literals are widened, numbers compare with numbers,
nothing compares with everything, and other types when one goes into the other. -/
def isComparableWith (a b : Ty) : Bool :=
  let left := a.widened
  let right := b.widened
  left.isNothing || right.isNothing ||
    (left.isAssignableTo number && right.isAssignableTo number) ||
    left.isAssignableTo right || right.isAssignableTo left

end Ty

end ScriptCheck
