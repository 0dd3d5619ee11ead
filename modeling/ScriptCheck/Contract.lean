import ScriptCheck.Bound.Tree
import ScriptCheck.Diagnostic

/-!
Contracts of bound trees: initial values fit their variables and fields, values their targets,
operands their operators, keys their arrays, arguments their parameters and returned values their
functions. Parts are looked at before the whole, from left to right, and the first violation is
reported; types that were received are widened in the report.
-/

namespace ScriptCheck

/-- The outcome of a check. -/
abbrev Check := Except Diagnostic Unit

/-- Rejects a received type that does not go into the expected one. -/
def expectInto (received expected : Ty) (position : Position)
    (cause : String → String → Cause) : Check :=
  if received.isAssignableTo expected then .ok ()
  else .error ⟨cause expected.display received.widened.display, position⟩

/-- Rejects the first argument that does not go into its parameter. -/
def checkEach : List (String × Ty) → List BoundExpr → Check
  | p :: ps, a :: as => do
    expectInto a.type p.2 a.span.start .argumentMismatch
    checkEach ps as
  | _, _ => .ok ()

/-- Rejects arguments of a wrong number or type. -/
def checkArguments (f : Signature Ty) (args : List BoundExpr) (position : Position) : Check := do
  let expected := f.params.length
  let received := args.length
  if expected < received then throw ⟨.unexpectedArguments expected received, position⟩
  if received < expected then throw ⟨.missingArguments expected received, position⟩
  checkEach f.params args

/-- Rejects operands that do not fit their operator. -/
def checkOperands (use : BinaryOperator) (left right : BoundExpr) : Check :=
  if left.type.isAssignableTo use.left && right.type.isAssignableTo use.right then .ok ()
  else
    let operands := left.type.widened.display ++ ", " ++ right.type.widened.display
    .error ⟨.operatorMismatch use.kind.symbol operands, left.span.start⟩

/-- Rejects operands that can never be equal, if their operator compares them. -/
def checkComparable (use : BinaryOperator) (left right : BoundExpr) (position : Position) :
    Check :=
  if use.kind.comparesOperands && !left.type.isComparableWith right.type then
    .error ⟨.incomparableOperands left.type.widened.display right.type.widened.display, position⟩
  else .ok ()

/-- Rejects an operand that does not fit its operator. -/
def checkOperand (use : UnaryOperator) (operand : BoundExpr) (position : Position) : Check :=
  if operand.type.isAssignableTo use.operand then .ok ()
  else .error ⟨.operatorMismatch use.kind.symbol operand.type.widened.display, position⟩

/-- Rejects a value that does not go into its target. A compound assignment writes the result of its
operator. -/
def checkAssignment (operator : Option BinaryOperator) (target value : BoundExpr)
    (position : Position) : Check :=
  match operator with
  | none => expectInto value.type target.type value.span.start .typeMismatch
  | some use => do
    checkOperands use target value
    expectInto use.result target.type position .typeMismatch

/-- Rejects a key of an array or a text that is no integer. -/
def checkIndex (receiver key : BoundExpr) : Check :=
  let t := receiver.type.widened
  if t.isArray || t.isNamed "string" then
    expectInto key.type .int key.span.start .typeMismatch
  else .ok ()

/-- Rejects arguments that do not fit the function that is called. -/
def checkCall (callee : BoundExpr) (args : List BoundExpr) (position : Position) : Check :=
  match callee.type with
  | .function f => checkArguments f args position
  | _ => .ok ()

/-- Rejects arguments that do not fit the constructor of a class. A class without one takes none. -/
def checkConstruct (c : ClassDef Ty) (args : List BoundExpr) (position : Position) : Check :=
  match c.findMember? "constructor" with
  | some ⟨⟨_, .function f, _, _⟩, _⟩ => checkArguments f args position
  | _ =>
    if args.isEmpty then .ok ()
    else .error ⟨.unexpectedArguments 0 args.length, position⟩

/-! ### Expressions -/

namespace BoundExpr

mutual

/-- Checks the contracts in an expression. -/
def check : BoundExpr → Check
  | .literal _ _ => .ok ()
  | .keyword _ _ => .ok ()
  | .symbol _ _ _ => .ok ()
  | .array _ elements => checkAll elements
  | .object _ entries => checkEntries entries
  | .binary node use left right => do
    check left
    check right
    checkOperands use left right
    checkComparable use left right node.span.start
  | .unary node use operand => do
    check operand
    checkOperand use operand node.span.start
  | .assign node operator target value => do
    check target
    check value
    checkAssignment operator target value node.span.start
  | .access _ receiver key _ => do
    check receiver
    checkKey receiver key
  | .call node callee args => do
    check callee
    checkAll args
    checkCall callee args node.span.start
  | .construct node c args => do
    checkAll args
    checkConstruct c args node.span.start
termination_by structural e => e

/-- Checks expressions from left to right. -/
def checkAll : List BoundExpr → Check
  | [] => .ok ()
  | e :: es => do
    check e
    checkAll es
termination_by structural es => es

/-- Checks the key of an access. -/
def checkKey (receiver : BoundExpr) : BoundKey BoundExpr → Check
  | .name _ => .ok ()
  | .computed e => do
    check e
    checkIndex receiver e
termination_by structural k => k

/-- Checks the key of an entry. -/
def checkEntryKey : BoundKey BoundExpr → Check
  | .name _ => .ok ()
  | .computed e => check e
termination_by structural k => k

/-- Checks entries from left to right, each key before its value. -/
def checkEntries : List (BoundEntry BoundExpr) → Check
  | [] => .ok ()
  | ⟨key, value⟩ :: rest => do
    checkEntryKey key
    check value
    checkEntries rest
termination_by structural es => es

end

end BoundExpr

/-! ### Statements -/

/-- Checks an optional initial value against the type of what it initializes. -/
def checkInitializer (type : Ty) (cause : String → String → Cause) : Option BoundExpr → Check
  | none => .ok ()
  | some value => do
    value.check
    expectInto value.type type value.span.start cause

/-- Checks the initial values of fields in order. -/
def checkFields : List BoundField → Check
  | [] => .ok ()
  | f :: fs => do
    checkInitializer f.type .fieldMismatch f.value
    checkFields fs

/-- Checks a returned value against the result of the innermost function around it. Outside of a
function there is nothing to compare with. -/
def checkReturn (expected : Option Ty) (position : Position) : Option BoundExpr → Check
  | some value => do
    value.check
    match expected with
    | some t => expectInto value.type t value.span.start .returnMismatch
    | none => .ok ()
  | none =>
    match expected with
    | some t => expectInto .void t position .returnMismatch
    | none => .ok ()

namespace BoundStmt

mutual

/-- Checks the contracts in a statement; `expected` is the result of the innermost function around
it. -/
def check (expected : Option Ty) : BoundStmt → Check
  | .expr _ e => e.check
  | .block _ body => checkAll expected body
  | .varDecl _ _ type value _ => checkInitializer type .typeMismatch value
  | .ifElse _ condition onTrue onFalse => do
    condition.check
    check expected onTrue
    checkOption expected onFalse
  | .whileLoop _ condition body => do
    condition.check
    check expected body
  | .forIn _ _ _ iterable body => do
    iterable.check
    checkAll expected body
  | .fnDecl _ f => checkFn f
  | .ret info value => checkReturn expected info.span.start value
  | .jump _ _ => .ok ()
  | .classDecl _ _ fields methods => do
    checkFields fields
    checkFns methods
  | .typeDecl _ _ _ => .ok ()
termination_by structural s => s

/-- Checks statements in order. -/
def checkAll (expected : Option Ty) : List BoundStmt → Check
  | [] => .ok ()
  | s :: ss => do
    check expected s
    checkAll expected ss
termination_by structural ss => ss

/-- Checks an optional statement. -/
def checkOption (expected : Option Ty) : Option BoundStmt → Check
  | none => .ok ()
  | some s => check expected s
termination_by structural s => s

/-- Checks the body of a function against its result. -/
def checkFn : BoundFn BoundStmt → Check
  | ⟨_, signature, body⟩ => checkAll (some signature.result) body
termination_by structural f => f

/-- Checks functions in order. -/
def checkFns : List (BoundFn BoundStmt) → Check
  | [] => .ok ()
  | f :: fs => do
    checkFn f
    checkFns fs
termination_by structural fs => fs

end

end BoundStmt

/-- Checks the contracts in a program. -/
def checkContracts (statements : List BoundStmt) : Check := BoundStmt.checkAll none statements

end ScriptCheck
