import ScriptCheck.Literal
import ScriptCheck.Modifiers

/-!
Types. A type is a name, a union, an array, an interface, a function, a class, a literal or an
intersection. Types are built from parts that stand for their members, parameters and properties in
the order of their declaration. Equality of types is equality of values: it follows the equality of
literals, so that a type with NaN in it differs from itself.
-/

namespace ScriptCheck

/-- The keys of index signatures. -/
inductive IndexKey where
  | string
  | int
deriving DecidableEq

/-- How a key of an index signature is written. -/
def IndexKey.display : IndexKey → String
  | .string => "string"
  | .int => "int"

/-- A property of an interface. -/
structure Property (τ : Type) where
  name : String
  type : τ
  writable : Bool

/-- A member of a class. -/
structure Member (τ : Type) where
  name : String
  type : τ
  modifiers : Modifiers
  writable : Bool

/-- The properties and index signatures of an interface. A declared interface has a name, the type
of an object has none. -/
structure Interface (τ : Type) where
  name : Option String
  props : List (Property τ)
  index : List (IndexKey × τ)

/-- The parameters and the result of a function. -/
structure Signature (τ : Type) where
  params : List (String × τ)
  result : τ

/-- A class: its own members, what it mixes in and what it extends. -/
structure ClassDef (τ : Type) where
  name : String
  members : List (Member τ)
  mixins : List τ
  superclass : Option τ

/-- A type. The element of an array is missing for an array that holds nothing yet. -/
inductive Ty where
  | named (name : String) (args : List Ty)
  | union (members : List Ty)
  | array (element : Option Ty)
  | interface (interface : Interface Ty)
  | function (signature : Signature Ty)
  | classType (definition : ClassDef Ty)
  | literal (value : Literal)
  | intersection (members : List Ty)

namespace Ty

/-! ### Types with a fixed name -/

/-- A name without arguments. -/
def singular (name : String) : Ty := .named name []

def any : Ty := singular "any"
def int : Ty := singular "int"
def float : Ty := singular "float"
def string : Ty := singular "string"
def bool : Ty := singular "bool"
def void : Ty := singular "void"
def null : Ty := singular "null"
def undefined : Ty := singular "undefined"
def range : Ty := singular "Range"

/-- A name with arguments. `Array` with one argument is the array type. -/
def generic (name : String) (args : List Ty) : Ty :=
  match args with
  | [element] => if name = "Array" then .array (some element) else .named name [element]
  | _ => .named name args

/-- A function type. -/
def fn (params : List (String × Ty)) (result : Ty) : Ty := .function ⟨params, result⟩

/-! ### Equality -/

mutual

/-- Whether two types are equal as values. -/
def same : Ty → Ty → Bool
  | .named a as, .named b bs => a == b && sameAll as bs
  | .union as, .union bs => sameAll as bs
  | .array a, .array b => sameOption a b
  | .interface ⟨a, ps, is⟩, .interface ⟨b, qs, js⟩ => a == b && sameProps ps qs && sameIndex is js
  | .function ⟨ps, a⟩, .function ⟨qs, b⟩ => sameParams ps qs && same a b
  | .classType ⟨a, ms, xs, s⟩, .classType ⟨b, ns, ys, t⟩ =>
    a == b && sameMembers ms ns && sameAll xs ys && sameOption s t
  | .literal a, .literal b => a.same b
  | .intersection as, .intersection bs => sameAll as bs
  | _, _ => false
termination_by structural s => s

/-- Whether two lists of types are equal as values. -/
def sameAll : List Ty → List Ty → Bool
  | [], [] => true
  | a :: as, b :: bs => same a b && sameAll as bs
  | _, _ => false
termination_by structural s => s

/-- Whether two optional types are equal as values. -/
def sameOption : Option Ty → Option Ty → Bool
  | none, none => true
  | some a, some b => same a b
  | _, _ => false
termination_by structural s => s

/-- Whether two lists of properties are equal as values. -/
def sameProps : List (Property Ty) → List (Property Ty) → Bool
  | [], [] => true
  | ⟨n, a, v⟩ :: as, ⟨m, b, w⟩ :: bs => n == m && same a b && v == w && sameProps as bs
  | _, _ => false
termination_by structural s => s

/-- Whether two lists of index signatures are equal as values. -/
def sameIndex : List (IndexKey × Ty) → List (IndexKey × Ty) → Bool
  | [], [] => true
  | (k, a) :: as, (l, b) :: bs => k == l && same a b && sameIndex as bs
  | _, _ => false
termination_by structural s => s

/-- Whether two lists of parameters are equal as values. -/
def sameParams : List (String × Ty) → List (String × Ty) → Bool
  | [], [] => true
  | (n, a) :: as, (m, b) :: bs => n == m && same a b && sameParams as bs
  | _, _ => false
termination_by structural s => s

/-- Whether two lists of class members are equal as values. -/
def sameMembers : List (Member Ty) → List (Member Ty) → Bool
  | [], [] => true
  | ⟨n, a, u, v⟩ :: as, ⟨m, b, u', w⟩ :: bs =>
    n == m && same a b && u == u' && v == w && sameMembers as bs
  | _, _ => false
termination_by structural s => s

end

/-! ### Unions and intersections -/

/-- Appends a type unless an equal one is already there. -/
def addDistinct (members : List Ty) (t : Ty) : List Ty :=
  if members.any (·.same t) then members else members ++ [t]

/-- The distinct types of a list, in the order of their first appearance. -/
def distinct (ts : List Ty) : List Ty := ts.foldl addDistinct []

/-- The members of a union, or the type itself. -/
def unionMembers : Ty → List Ty
  | .union ms => ms
  | t => [t]

/-- The members of an intersection, or the type itself. -/
def intersectionMembers : Ty → List Ty
  | .intersection ms => ms
  | t => [t]

/-- Types put together: those that have members are opened, repeated members dropped, and a single
member stands for itself. -/
def gather (members : Ty → List Ty) (make : List Ty → Ty) (ts : List Ty) : Ty :=
  match distinct (ts.flatMap members) with
  | [t] => t
  | ms => make ms

/-- The union of types. Unions among them are opened. -/
def unionOf (ts : List Ty) : Ty := gather unionMembers .union ts

/-- The intersection of types. Intersections among them are opened. -/
def intersectionOf (ts : List Ty) : Ty := gather intersectionMembers .intersection ts

section

variable {members : Ty → List Ty} {make : List Ty → Ty} {ts : List Ty}

/-- One member is left, or the members left are put together. -/
theorem gather_cases (members : Ty → List Ty) (make : List Ty → Ty) (ts : List Ty) :
    (∃ t, distinct (ts.flatMap members) = [t] ∧ gather members make ts = t) ∨
      ((distinct (ts.flatMap members)).length ≠ 1 ∧
        gather members make ts = make (distinct (ts.flatMap members))) := by
  unfold gather
  split
  · rename_i t hone
    exact .inl ⟨t, hone, rfl⟩
  · rename_i hmany
    exact .inr ⟨fun hlength => (List.length_eq_one_iff.1 hlength).elim hmany, rfl⟩

/-- What is put together is known by the members left. -/
theorem gather_iff {P : Ty → Prop} {Q : List Ty → Prop} (hone : ∀ t, P t ↔ Q [t])
    (hmake : ∀ ms, P (make ms) ↔ Q ms) :
    P (gather members make ts) ↔ Q (distinct (ts.flatMap members)) := by
  rcases gather_cases members make ts with ⟨t, hleft, heq⟩ | ⟨-, heq⟩
  · rw [heq, hleft]
    exact hone t
  · rw [heq]
    exact hmake _

end

/-- Numbers of either kind. -/
def number : Ty := unionOf [int, float]

/-! ### Questions about a type -/

/-- Whether a type is the given name, with or without arguments. -/
def isNamed (t : Ty) (name : String) : Bool :=
  match t with
  | .named own _ => own == name
  | _ => false

/-- Whether a type is `any`. -/
def isAny (t : Ty) : Bool := t.isNamed "any"

mutual

/-- Whether a type is the given name, or a union with it at any depth. -/
def containsNamed (name : String) : Ty → Bool
  | .union ms => anyContainsNamed name ms
  | t => t.isNamed name
termination_by structural t => t

/-- Whether one of the types is the given name, or a union with it at any depth. -/
def anyContainsNamed (name : String) : List Ty → Bool
  | [] => false
  | t :: ts => containsNamed name t || anyContainsNamed name ts
termination_by structural ts => ts

end

/-- Whether a type may be `any`. -/
def containsAny (t : Ty) : Bool := containsNamed "any" t

/-- Whether a type may be `undefined`. -/
def containsUndefined (t : Ty) : Bool := containsNamed "undefined" t

mutual

/-- The type with literals replaced by the types that hold them, through unions. -/
def widened : Ty → Ty
  | .literal v => singular v.widenedName
  | .union ms => unionOf (widenedAll ms)
  | t => t
termination_by structural t => t

/-- The types with literals replaced by the types that hold them. -/
def widenedAll : List Ty → List Ty
  | [] => []
  | t :: ts => widened t :: widenedAll ts
termination_by structural ts => ts

end

/-- The element of an array type; `Array` as a name counts as one. The inner option is `none` for an
array that holds nothing yet. -/
def arrayElement? : Ty → Option (Option Ty)
  | .array element => some element
  | .named name args => if name = "Array" then some args.head? else none
  | _ => none

/-- The element of an array type, `any` for an array that holds nothing yet. -/
def elementType? (t : Ty) : Option Ty := t.arrayElement?.map (·.getD any)

/-- The name under which a type was declared. -/
def nominalName? : Ty → Option String
  | .named name _ => some name
  | .classType c => some c.name
  | .interface i => i.name
  | _ => none

/-! ### Kinds of types -/

def isUnion : Ty → Bool
  | .union _ => true
  | _ => false

def isIntersection : Ty → Bool
  | .intersection _ => true
  | _ => false

def isInterface : Ty → Bool
  | .interface _ => true
  | _ => false

def isFunction : Ty → Bool
  | .function _ => true
  | _ => false

def isClass : Ty → Bool
  | .classType _ => true
  | _ => false

def isLiteral : Ty → Bool
  | .literal _ => true
  | _ => false

/-- Whether a type is a name, with or without arguments. -/
def isSingular : Ty → Bool
  | .named _ _ => true
  | _ => false

/-- Whether a type is an array in either spelling. -/
def isArray (t : Ty) : Bool := t.arrayElement?.isSome

end Ty

/-! ### Members -/

/-- The property of a name. -/
def Interface.property? (i : Interface Ty) (name : String) : Option (Property Ty) :=
  i.props.find? (·.name == name)

/-- The type behind an index key. -/
def Interface.indexType? (i : Interface Ty) (key : IndexKey) : Option Ty :=
  (i.index.find? (·.1 == key)).map Prod.snd

/-- A class member and the class or interface that declares it. -/
structure FoundMember where
  member : Member Ty
  owner : String

/-- Whether the member may be used only inside its class. -/
def Member.isPrivate {τ : Type} (m : Member τ) : Bool := m.modifiers.isPrivate

/-- The property of a name in an interface, as a public member. -/
def Ty.interfaceMember? (name : String) : Ty → Option FoundMember
  | .interface i =>
    (i.property? name).map fun p => ⟨⟨p.name, p.type, .public, p.writable⟩, i.name.getD ""⟩
  | _ => none

namespace Ty

mutual

/-- The member of a name in a class: its own, else of the class it extends, else of what it mixes
in. -/
def classMember? (name : String) : Ty → Option FoundMember
  | .classType ⟨owner, members, mixins, superclass⟩ =>
    match members.find? (·.name == name) with
    | some member => some ⟨member, owner⟩
    | none =>
      match inheritedMember? name superclass with
      | some found => some found
      | none => mixedMember? name mixins
  | _ => none
termination_by structural t => t

/-- The member of a name in the class that is extended, if there is one. -/
def inheritedMember? (name : String) : Option Ty → Option FoundMember
  | some t => classMember? name t
  | none => none
termination_by structural t => t

/-- The member of a name in the first of the classes and interfaces that has it. -/
def mixedMember? (name : String) : List Ty → Option FoundMember
  | [] => none
  | t :: rest =>
    match (classMember? name t).or (interfaceMember? name t) with
    | some found => some found
    | none => mixedMember? name rest
termination_by structural ts => ts

end

end Ty

/-- The member of a name, of the class itself or inherited or mixed in. -/
def ClassDef.findMember? (c : ClassDef Ty) (name : String) : Option FoundMember :=
  (Ty.classType c).classMember? name

end ScriptCheck
