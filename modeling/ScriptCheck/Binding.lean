import ScriptCheck.Bound.Tree
import ScriptCheck.Stmt
import ScriptCheck.Ty.Extension
import ScriptCheck.Ty.Registry

/-!
Binding: every expression gets its type. Values and type names have scopes that open and close
together, at the same places as in resolution, so that the distances found there address the
declarations here. What a name stands for may change while its declaration is bound: a class or a
function is declared before its body, and declared anew when the types of its results are known.
-/

namespace ScriptCheck

/-- A value in scope. -/
structure Variable where
  name : String
  type : Ty
  writable : Bool

/-- What is known while a program is bound. -/
structure Binder where
  scopes : ScopeStack Variable
  types : Registry
  /-- For every read, the distance of its declaration. -/
  distances : Table Nat Nat
  /-- The types of the expressions bound so far. -/
  boundTypes : Table Nat Ty
  /-- The classes whose bodies are being bound, innermost first. -/
  classes : List String

/-- A step of binding. A step that fails keeps what was known when it failed. -/
abbrev Binding := EStateM Failure Binder

namespace Binder

/-- Only the intrinsic types are known. -/
def empty : Binder := ⟨.empty, .intrinsic, .empty, .empty, []⟩

/-- Declares a value in the innermost scope. -/
def define (b : Binder) (name : String) (type : Ty) (writable : Bool) : Binder :=
  { b with scopes := b.scopes.insert name ⟨name, type, writable⟩ }

/-- Declares a value that cannot be written to. -/
def defineConst (b : Binder) (name : String) (type : Ty) : Binder := b.define name type false

/-- Declares a type in the innermost scope. -/
def declareType (b : Binder) (name : String) (type : Ty) : Binder :=
  { b with types := b.types.declare name type }

/-- Declares a class, as a type and as a value. -/
def declareClass (b : Binder) (c : ClassDef Ty) : Binder :=
  (b.declareType c.name (.classType c)).defineConst c.name (.classType c)

/-- Opens a scope for values and types. -/
def push (b : Binder) : Binder := { b with scopes := b.scopes.push, types := b.types.push }

/-- Closes the innermost scope of values and of types. -/
def pop (b : Binder) : Binder := { b with scopes := b.scopes.pop, types := b.types.pop }

/-- Goes into the body of a class. -/
def enterClass (name : String) (b : Binder) : Binder :=
  { b with classes := name :: b.classes }.push

/-- Leaves the body of a class. -/
def leaveClass (b : Binder) : Binder := { b.pop with classes := b.classes.tail }

/-- The value that an expression reads, with its distance: at the known distance of the expression
if there is one, else the innermost value of the name. -/
def readVariable (b : Binder) (name : String) (id : Nat) (position : Position) :
    Except Failure (Variable × Nat) :=
  let missing : Failure := .of (.symbolNotFound name) position
  match b.distances.get? id with
  | some distance =>
    match b.scopes.lookupAt distance name with
    | .ok (some v) => .ok (v, distance)
    | .ok none => .error missing
    | .error _ => .error .stuck
  | none =>
    match b.scopes.lookup name with
    | some (distance, v) => .ok (v, distance)
    | none => .error missing

end Binder

/-! ### Members -/

/-- What a member is looked up by. -/
inductive MemberKey where
  | name (text : String)
  | index (key : IndexKey)

/-- A type and whether what has it may be written to. -/
structure Slot where
  type : Ty
  writable : Bool

/-- The slot of a member that does not exist. -/
def Slot.undefined : Slot := ⟨.undefined, true⟩

/-- A member of an interface. A name that is no property goes to the `string` signature. -/
def Interface.slot (i : Interface Ty) : MemberKey → Slot
  | .name name =>
    match i.property? name with
    | some p => ⟨p.type, p.writable⟩
    | none =>
      match i.indexType? .string with
      | some t => ⟨t, true⟩
      | none => .undefined
  | .index key =>
    match i.indexType? key with
    | some t => ⟨t, true⟩
    | none => .undefined

/-- A member of a class. A private one is found only inside a class of its owner's name. -/
def ClassDef.slot (c : ClassDef Ty) (classes : List String) (position : Position) :
    MemberKey → Except Failure Slot
  | .name name =>
    match c.findMember? name with
    | some ⟨member, owner⟩ =>
      if member.isPrivate && !classes.contains owner then
        .error (.of (.privateMemberAccess name owner) position)
      else .ok ⟨member.type, member.writable⟩
    | none => .ok .undefined
  | .index _ => .ok .undefined

namespace Registry

/-- What a name without arguments stands for, if that is a class, an interface or an
intersection. -/
def expansion? (r : Registry) : Ty → Option Ty
  | .named name [] =>
    match r.get? name with
    | some (.classType c) => some (.classType c)
    | some (.interface i) => some (.interface i)
    | some (.intersection ms) => some (.intersection ms)
    | _ => none
  | _ => none

/-- A type with a name for a class, an interface or an intersection replaced by it. -/
def expand (r : Registry) (t : Ty) : Ty := (r.expansion? t).getD t

/-- The number of entries, by which the number of names is bounded. -/
def entryCount (r : Registry) : Nat :=
  r.scopes.scopes.foldl (fun n scope => n + scope.entries.length) 0

end Registry

section

variable (r : Registry) (classes : List String) (position : Position) (key : MemberKey)

mutual

/-- A member of a type; `expanded` looks it up in what a name stands for. An intersection has the
first member that is not `undefined`. -/
def memberSlot (expanded : Ty → Except Failure Slot) : Ty → Except Failure Slot
  | .interface i => .ok (i.slot key)
  | .classType c => c.slot classes position key
  | .intersection members => firstSlot expanded members
  | t => if t.containsAny then .ok ⟨.any, true⟩ else .ok .undefined
termination_by structural t => t

/-- The first member that is not `undefined`, of types whose names are expanded. -/
def firstSlot (expanded : Ty → Except Failure Slot) : List Ty → Except Failure Slot
  | [] => .ok .undefined
  | t :: ts => do
    let slot ←
      match r.expansion? t with
      | some found => expanded found
      | none => memberSlot expanded t
    if slot.type.isNamed "undefined" then firstSlot expanded ts else return slot
termination_by structural ts => ts

end

/-- A member found by expanding no more nested names than the fuel. -/
def memberWithin : Nat → Ty → Except Failure Slot
  | 0, _ => .error .stuck
  | fuel + 1, t => memberSlot r classes position key (memberWithin fuel) t

/-- A member of a type. A search that expands more nested names than there are expands one of them
inside itself and would never end. -/
def memberOf (t : Ty) : Except Failure Slot :=
  memberWithin r classes position key (r.entryCount + 1) t

end

/-! ### Steps -/

namespace Binding

/-- Fails for a cause at a position. -/
def reject {α : Type} (cause : Cause) (position : Position) : Binding α := throw (.of cause position)

/-- The type that a reference stands for. -/
def typeOf (ref : TypeRef) : Binding Ty := do
  match ref.toTy (← get).types with
  | .ok t => return t
  | .error d => throw (.rejected d)

/-- The type that an optional reference stands for, `any` if it is missing. -/
def typeOrAny : Option TypeRef → Binding Ty
  | some ref => typeOf ref
  | none => return .any

/-- The value that an expression reads. -/
def readVariable (name : String) (id : Nat) (position : Position) : Binding (Variable × Nat) := do
  match (← get).readVariable name id position with
  | .ok found => return found
  | .error e => throw e

/-- A member of a type, seen from the class bodies that are being bound. -/
def member (t : Ty) (key : MemberKey) (position : Position) : Binding Slot := do
  let b ← get
  match memberOf b.types b.classes position key t with
  | .ok slot => return slot
  | .error e => throw e

/-- Notes the type of an expression. -/
def note (id : Nat) (type : Ty) : Binding Unit :=
  modify fun b => { b with boundTypes := b.boundTypes.insert id type }

/-- Notes the type of an expression and gives its bound node. -/
def finish (node : Node) (type : Ty) : Binding BoundNode := do
  note node.id type
  return ⟨node.id, node.span, type⟩

end Binding

open Binding

/-! ### Expressions -/

/-- The failure of an operator on operands, which are widened for the message. -/
def operatorFailure (operator : Token) (operands : List Ty) : Failure :=
  .of (.operatorMismatch operator.kind.symbol
    (joinWith ", " (operands.map (·.widened.display)))) operator.span.start

/-- How a key is called in messages. -/
def Key.describe : Key Expr → String
  | .name text _ => text
  | .computed (.literal _ value) => "[" ++ value.display ++ "]"
  | .computed _ => "[index]"

/-- The key by which a computed access looks a member up: the text of a literal, an integer, or
else some text. -/
def memberKeyOf : Ty → MemberKey
  | .literal (.text name) => .name name
  | t => if t.widened.isNamed "int" then .index .int else .index .string

/-- The slot that an access to an expanded type leads to, and whether it is a built-in member. -/
def slotIn (t : Ty) (key : BoundKey BoundExpr) (position : Position) : Binding (Slot × Bool) := do
  match key with
  | .name name =>
    match t.extension? name with
    | some type => return (⟨type, false⟩, true)
    | none => return (← member t (.name name) position, false)
  | .computed key =>
    match t.widened.elementType? with
    | some element => return (⟨element, true⟩, false)
    | none =>
      if t.widened.isNamed "string" then return (⟨.string, false⟩, false)
      else return (← member t (memberKeyOf key.type) position, false)

/-- The slot that an access leads to, and whether it is a built-in member. -/
def bindSlot (receiver : Ty) (key : BoundKey BoundExpr) (position : Position) :
    Binding (Slot × Bool) := do
  slotIn ((← get).types.expand receiver) key position

/-- Writes a property, in place if its name is known. -/
def putProperty (p : Property Ty) : List (Property Ty) → List (Property Ty)
  | [] => [p]
  | q :: qs => if q.name = p.name then p :: qs else q :: putProperty p qs

/-- Adds a type to an index signature, which is appended if its key is new. -/
def putIndex (key : IndexKey) (t : Ty) : List (IndexKey × Ty) → List (IndexKey × Ty)
  | [] => [(key, t)]
  | (k, u) :: rest =>
    if k = key then (k, .unionOf [u, t]) :: rest else (k, u) :: putIndex key t rest

/-- The type of an object from the keys and values of its entries. -/
def objectType (entries : List (BoundEntry BoundExpr)) : Interface Ty :=
  entries.foldl
    (fun i e =>
      let t := e.value.type.widened
      match e.key with
      | .name name => { i with props := putProperty ⟨name, t, true⟩ i.props }
      | .computed key =>
        let index := if key.type.widened.isNamed "int" then .int else .string
        { i with index := putIndex index t i.index })
    ⟨none, [], []⟩

/-- The type of an array from the types of its elements. -/
def arrayType (elements : List BoundExpr) : Ty :=
  if elements.isEmpty then .array none
  else .array (some (.unionOf (elements.map (·.type.widened))))

/-- Only names and members can be called. -/
def Expr.canBeCalled : Expr → Bool
  | .symbol _ _ | .access _ _ _ => true
  | _ => false

/-- The result of calling a value of the given type, if there is one. -/
def callResult? : Ty → Option Ty
  | .function f => some f.result
  | t => if t.isAny then some .any else none

/-- The type of a call. -/
def callType (callee : Expr) (bound : BoundExpr) : Binding Ty :=
  match callee.canBeCalled, callResult? bound.type with
  | true, some t => return t
  | _, _ => reject (.notCallable bound.type.widened.display) bound.span.start

/-- Rejects a computed key of an object unless it is a text or an integer. -/
def expectKey (key : BoundExpr) : Binding Unit :=
  if key.type.isAssignableTo (.unionOf [.string, .int]) then pure ()
  else reject (.invalidComputedKey key.type.widened.display) key.span.start

namespace Expr

mutual

/-- Binds an expression. -/
def bind : Expr → Binding BoundExpr
  | .literal node value => return .literal (← finish node (.literal value)) value
  | .keyword node word => do
    let type := match word with
      | .null => Ty.null
      | .undefined => Ty.undefined
    return .keyword (← finish node type) word
  | .symbol node name => do
    let (found, distance) ← readVariable name node.id node.span.start
    return .symbol (← finish node found.type) name distance
  | .array node elements => do
    let elements ← bindAll elements
    return .array (← finish node (arrayType elements)) elements
  | .object node entries => do
    let entries ← bindEntries entries
    return .object (← finish node (.interface (objectType entries))) entries
  | .binary node operator left right => do
    let left ← bind left
    let right ← bind right
    match BinaryOperator.bind? operator.kind left.type right.type with
    | some use => return .binary (← finish node use.result) use left right
    | none => throw (operatorFailure operator [left.type, right.type])
  | .unary node operator operand => do
    let operand ←
      if operator.kind = .plusPlus || operator.kind = .minusMinus then bindTarget operand
      else bind operand
    match UnaryOperator.bind? operator.kind operand.type with
    | some use => return .unary (← finish node use.result) use operand
    | none => throw (operatorFailure operator [operand.type])
  | .assign node operator target value => do
    let target ← bindTarget target
    let value ← bind value
    if operator.kind = .assignment then
      return .assign (← finish node target.type) none target value
    match BinaryOperator.bind? operator.kind target.type value.type with
    | some use => return .assign (← finish node target.type) (some use) target value
    | none => throw (operatorFailure operator [target.type, value.type])
  | .access node receiver key => do
    let receiver ← bind receiver
    let key ← bindKey key
    let (slot, isExtension) ← bindSlot receiver.type key node.span.start
    return .access (← finish node slot.type) receiver key isExtension
  | .call node callee args => do
    let bound ← bind callee
    let args ← bindAll args
    let type ← callType callee bound
    return .call (← finish node type) bound args
  | .construct node className classNode args => do
    let (found, _) ← readVariable className classNode.id classNode.span.start
    match found.type with
    | .classType c => do
      note classNode.id (.classType c)
      let args ← bindAll args
      return .construct (← finish node (.classType c)) c args
    | t => reject (.notConstructable t.widened.display) classNode.span.start
termination_by structural e => e

/-- Binds what is written to, which has to be a variable or a member that can be written. -/
def bindTarget : Expr → Binding BoundExpr
  | .symbol node name => do
    let (found, distance) ← readVariable name node.id node.span.start
    unless found.writable do reject (.constantAssignment name) node.span.start
    return .symbol (← finish node found.type) name distance
  | .access node receiver key => do
    let receiver ← bind receiver
    let boundKey ← bindKey key
    let (slot, isExtension) ← bindSlot receiver.type boundKey node.span.start
    unless slot.writable do reject (.readonlyProperty key.describe) node.span.start
    return .access (← finish node slot.type) receiver boundKey isExtension
  | e => reject .invalidAssignmentTarget e.span.start
termination_by structural e => e

/-- Binds expressions from left to right. -/
def bindAll : List Expr → Binding (List BoundExpr)
  | [] => return []
  | e :: es => do
    let bound ← bind e
    let rest ← bindAll es
    return bound :: rest
termination_by structural es => es

/-- Binds a key. -/
def bindKey : Key Expr → Binding (BoundKey BoundExpr)
  | .name text _ => return .name text
  | .computed e => return .computed (← bind e)
termination_by structural k => k

/-- Binds entries from left to right, each key before its value. -/
def bindEntries : List (Entry Expr) → Binding (List (BoundEntry BoundExpr))
  | [] => return []
  | ⟨key, value⟩ :: rest => do
    let key ← bindKey key
    match key with
    | .computed k => expectKey k
    | .name _ => pure ()
    let value ← bind value
    let rest ← bindEntries rest
    return ⟨key, value⟩ :: rest
termination_by structural es => es

end

/-- Binds an optional expression. -/
def bindOption : Option Expr → Binding (Option BoundExpr)
  | some e => return some (← e.bind)
  | none => return none

end Expr

/-! ### Statements -/

/-- The element type of a loop over a value. -/
def iterationType (t : Ty) : Ty :=
  match t.widened.elementType? with
  | some element => element
  | none => if t.widened.isNamed "Range" then .int else .any

/-- The type of a variable from the type it is declared with and its initial value. Declared as
`any` it takes the type of the value, and `undefined` is added if the value may be `undefined`. -/
def variableType (declared : Ty) : Option BoundExpr → Ty
  | none => declared
  | some value =>
    if declared.isAny then value.type.widened
    else if value.type.containsUndefined && !declared.containsUndefined then
      .unionOf [declared, .undefined]
    else declared

/-- The parameters of a function with their types. -/
def bindParams : List Param → Binding (List (String × Ty))
  | [] => return []
  | p :: ps => do
    let t ← typeOf p.type
    let rest ← bindParams ps
    return (p.name, t) :: rest

/-- The type of a function before its body is bound. An unknown result is `any`. -/
def bindSignature (params : List Param) (result : Option TypeRef) : Binding (Signature Ty) := do
  let params ← bindParams params
  let result ← typeOrAny result
  return ⟨params, result⟩

/-- Declares the parameters of a function. -/
def defineParams (params : List (String × Ty)) (b : Binder) : Binder :=
  params.foldl (fun b p => b.define p.1 p.2 true) b

/-- The result type of a function: the annotated one, else the union of the types it returns, else
`void`. -/
def resultType (written : Option TypeRef) (signature : Signature Ty) (body : List BoundStmt) :
    Ty :=
  match written with
  | some _ => signature.result
  | none => (joinReturns (body.map (·.returns))).getD .void

/-- The class that is extended. -/
def bindSuperclass : Option Name → Binding (Option Ty)
  | none => return none
  | some name => do
    match (← get).types.get? name.text with
    | some (.classType c) => return some (.classType c)
    | _ => reject (.invalidSuperclass name.text) name.span.start

/-- The classes and interfaces that are mixed in. -/
def bindMixins : List Name → Binding (List Ty)
  | [] => return []
  | name :: names => do
    match (← get).types.get? name.text with
    | some (.classType c) => return .classType c :: (← bindMixins names)
    | some (.interface i) => return .interface i :: (← bindMixins names)
    | _ => reject (.invalidMixin name.text) name.span.start

/-- The members that fields declare. -/
def fieldMembers : List FieldDecl → Binding (List (Member Ty))
  | [] => return []
  | f :: fs => do
    let t ← typeOf f.type
    let rest ← fieldMembers fs
    return ⟨f.name, t, f.modifiers, !f.modifiers.isConst⟩ :: rest

/-- The members that methods declare, with results that may still be unknown. -/
def methodMembers : List (MethodDecl Stmt) → Binding (List (Member Ty))
  | [] => return []
  | m :: ms => do
    let signature ← bindSignature m.function.params m.function.result
    let rest ← methodMembers ms
    return ⟨m.function.name, .function signature, m.modifiers, false⟩ :: rest

/-- Binds the initial values of fields, which have the types of the first members. -/
def bindFields : List FieldDecl → List (Member Ty) → Binding (List BoundField)
  | f :: fs, m :: ms => do
    let value ← Expr.bindOption f.value
    let rest ← bindFields fs ms
    return ⟨f.name, m.type, value⟩ :: rest
  | _, _ => return []

/-- Gives a type to the first member of a name. -/
def retypeFirst (name : String) (t : Ty) : List (Member Ty) → List (Member Ty)
  | [] => []
  | m :: ms => if m.name = name then { m with type := t } :: ms else m :: retypeFirst name t ms

/-- Gives the members behind the fields the types of the bound methods. -/
def retypeMethods (fieldCount : Nat) (methods : List (BoundFn BoundStmt))
    (members : List (Member Ty)) : List (Member Ty) :=
  members.take fieldCount ++
    methods.foldl (fun ms f => retypeFirst f.name (.function f.signature) ms)
      (members.drop fieldCount)

/-- Gives a declared interface its name. -/
def nameInterface (name : String) : Ty → Ty
  | .interface i => .interface { i with name := some name }
  | t => t

namespace Stmt

mutual

/-- Binds a statement. -/
def bind : Stmt → Binding BoundStmt
  | .expr span e => return .expr ⟨span, none⟩ (← e.bind)
  | .block span body => do
    let body ← between Binder.push Binder.pop (bindAll body)
    return .block ⟨span, joinReturns (body.map (·.returns))⟩ body
  | .varDecl span name isConst type value => do
    let declared ← typeOrAny type
    let value ← Expr.bindOption value
    let type := variableType declared value
    modify (·.define name type !isConst)
    return .varDecl ⟨span, none⟩ name type value isConst
  | .ifElse span condition onTrue onFalse => do
    let condition ← condition.bind
    let onTrue ← bind onTrue
    let onFalse ← bindOption onFalse
    let returns := joinReturns (onTrue.returns :: onFalse.toList.map (·.returns))
    return .ifElse ⟨span, returns⟩ condition onTrue onFalse
  | .whileLoop span condition body => do
    let condition ← condition.bind
    let body ← bind body
    return .whileLoop ⟨span, body.returns⟩ condition body
  | .forIn span name iterable _ body => do
    let iterable ← iterable.bind
    let element := iterationType iterable.type
    let body ← between (fun b => b.push.define name element true) Binder.pop (bindAll body)
    return .forIn ⟨span, joinReturns (body.map (·.returns))⟩ name element iterable body
  | .fnDecl f => do
    let signature ← bindSignature f.params f.result
    modify (·.defineConst f.name (.function signature))
    let function ← bindFn signature f
    if f.result.isNone then modify (·.defineConst f.name (.function function.signature))
    return .fnDecl ⟨f.span, none⟩ function
  | .ret span value => do
    let value ← Expr.bindOption value
    let type := match value with
      | some e => e.type.widened
      | none => Ty.void
    return .ret ⟨span, some type⟩ value
  | .jump span isContinue => return .jump ⟨span, none⟩ isContinue
  | .classDecl span name superclass mixins fields methods => do
    modify (·.declareType name (.singular name))
    let superclass ← bindSuperclass superclass
    let mixins ← bindMixins mixins
    let own ← fieldMembers fields
    let members := own ++ (← methodMembers methods)
    let definition : ClassDef Ty := ⟨name, members, mixins, superclass⟩
    modify (·.declareClass definition)
    let enter := fun b =>
      (Binder.enterClass name b).defineConst "this" (.classType definition)
    let (fields, methods) ← between enter Binder.leaveClass do
      let fields ← bindFields fields members
      let methods ← bindMethods methods
      return (fields, methods)
    let final := { definition with members := retypeMethods fields.length methods members }
    modify (·.declareClass final)
    return .classDecl ⟨span, none⟩ final fields methods
  | .typeDecl span name ref => do
    modify (·.declareType name (.singular name))
    let t ← typeOf ref
    let type := nameInterface name t
    modify (·.declareType name type)
    return .typeDecl ⟨span, none⟩ name type
termination_by structural s => s

/-- Binds statements in order. -/
def bindAll : List Stmt → Binding (List BoundStmt)
  | [] => return []
  | s :: ss => do
    let bound ← bind s
    let rest ← bindAll ss
    return bound :: rest
termination_by structural ss => ss

/-- Binds an optional statement. -/
def bindOption : Option Stmt → Binding (Option BoundStmt)
  | some s => return some (← bind s)
  | none => return none
termination_by structural s => s

/-- Binds the body of a function in a scope with its parameters. -/
def bindFn (signature : Signature Ty) : FnDecl Stmt → Binding (BoundFn BoundStmt)
  | ⟨name, _, result, body, _, _⟩ => do
    let body ←
      between (fun b => defineParams signature.params b.push) Binder.pop (bindAll body)
    return ⟨name, { signature with result := resultType result signature body }, body⟩
termination_by structural f => f

/-- Binds methods in order. -/
def bindMethods : List (MethodDecl Stmt) → Binding (List (BoundFn BoundStmt))
  | [] => return []
  | ⟨_, function⟩ :: ms => do
    let signature ← bindSignature function.params function.result
    let bound ← bindFn signature function
    let rest ← bindMethods ms
    return bound :: rest
termination_by structural ms => ms

end

end Stmt

namespace Binder

/-- The binder at the start of a program, with the distances that resolution found. -/
def start (b : Binder) (distances : Table Nat Nat) : Binder :=
  { b with distances, boundTypes := .empty, classes := [] }

/-- The binder behind a program: only the global scope is open, and the types of the expressions
bound so far are kept. -/
def close (b : Binder) : Binder :=
  { b with scopes := b.scopes.truncate, types := b.types.truncate, distances := .empty }

/-- Binds a program in the global scope, which is left whether or not it fails. -/
def bind (b : Binder) (block : Block) (distances : Table Nat Nat) :
    Except Failure (List BoundStmt) × Binder :=
  match (Stmt.bindAll block.body).run (b.start distances) with
  | .ok statements b' => (.ok statements, b'.close)
  | .error e b' => (.error e, b'.close)

/-- The global values and the type names, which are kept from one program to the next. -/
structure Globals where
  symbols : Table String Variable
  types : Registry

/-- The global values and the type names. -/
def globals (b : Binder) : Globals := ⟨b.scopes.globals, b.types⟩

/-- The binder with the given global values and type names. -/
def restore (b : Binder) (g : Globals) : Binder :=
  { b with scopes := .ofGlobals g.symbols, types := g.types }

end Binder

end ScriptCheck
