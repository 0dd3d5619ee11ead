import ScriptCheck.Expr
import ScriptCheck.Operator
import ScriptCheck.Ty.Printer

/-!
Bound trees: expressions and statements with their types. Every expression has its type, every
statement the union of the types it returns, if it returns; a name has the distance of its
declaration.
-/

namespace ScriptCheck

/-! ### Expressions -/

/-- What every bound expression has. -/
structure BoundNode where
  id : Nat
  span : Span
  type : Ty

/-- The key of a property or of an access. -/
inductive BoundKey (ε : Type) where
  | name (text : String)
  | computed (key : ε)

/-- An entry of an object. -/
structure BoundEntry (ε : Type) where
  key : BoundKey ε
  value : ε

/-- An expression with its type. A simple assignment has no operator. -/
inductive BoundExpr where
  | literal (node : BoundNode) (value : Literal)
  | keyword (node : BoundNode) (word : Keyword)
  | symbol (node : BoundNode) (name : String) (distance : Nat)
  | array (node : BoundNode) (elements : List BoundExpr)
  | object (node : BoundNode) (entries : List (BoundEntry BoundExpr))
  | binary (node : BoundNode) (operator : BinaryOperator) (left right : BoundExpr)
  | unary (node : BoundNode) (operator : UnaryOperator) (operand : BoundExpr)
  | assign (node : BoundNode) (operator : Option BinaryOperator) (target value : BoundExpr)
  | access (node : BoundNode) (object : BoundExpr) (key : BoundKey BoundExpr) (isExtension : Bool)
  | call (node : BoundNode) (callee : BoundExpr) (args : List BoundExpr)
  | construct (node : BoundNode) (definition : ClassDef Ty) (args : List BoundExpr)

namespace BoundExpr

/-- The id, span and type of an expression. -/
def node : BoundExpr → BoundNode
  | .literal n _ | .keyword n _ | .symbol n _ _ | .array n _ | .object n _ | .binary n _ _ _
  | .unary n _ _ | .assign n _ _ _ | .access n _ _ _ | .call n _ _ | .construct n _ _ => n

/-- The type of an expression. -/
def type (e : BoundExpr) : Ty := e.node.type

/-- Where an expression is written. -/
def span (e : BoundExpr) : Span := e.node.span

end BoundExpr

/-! ### Statements -/

/-- What every bound statement has. -/
structure BoundInfo where
  span : Span
  returns : Option Ty

/-- A function with its type. -/
structure BoundFn (σ : Type) where
  name : String
  signature : Signature Ty
  body : List σ

/-- A field of a class with its type. -/
structure BoundField where
  name : String
  type : Ty
  value : Option BoundExpr

/-- A statement with its types. -/
inductive BoundStmt where
  | expr (info : BoundInfo) (expr : BoundExpr)
  | block (info : BoundInfo) (body : List BoundStmt)
  | varDecl (info : BoundInfo) (name : String) (type : Ty) (value : Option BoundExpr)
      (isConst : Bool)
  | ifElse (info : BoundInfo) (condition : BoundExpr) (onTrue : BoundStmt)
      (onFalse : Option BoundStmt)
  | whileLoop (info : BoundInfo) (condition : BoundExpr) (body : BoundStmt)
  | forIn (info : BoundInfo) (name : String) (element : Ty) (iterable : BoundExpr)
      (body : List BoundStmt)
  | fnDecl (info : BoundInfo) (function : BoundFn BoundStmt)
  | ret (info : BoundInfo) (value : Option BoundExpr)
  | jump (info : BoundInfo) (isContinue : Bool)
  | classDecl (info : BoundInfo) (definition : ClassDef Ty) (fields : List BoundField)
      (methods : List (BoundFn BoundStmt))
  | typeDecl (info : BoundInfo) (name : String) (type : Ty)

/-- The union of the given return types, if there are any. -/
def joinReturns (types : List (Option Ty)) : Option Ty :=
  match types.filterMap id with
  | [] => none
  | ts => some (.unionOf ts)

namespace BoundStmt

/-- The span and the return type of a statement. -/
def info : BoundStmt → BoundInfo
  | .expr i _ | .block i _ | .varDecl i _ _ _ _ | .ifElse i _ _ _ | .whileLoop i _ _
  | .forIn i _ _ _ _ | .fnDecl i _ | .ret i _ | .jump i _ | .classDecl i _ _ _
  | .typeDecl i _ _ => i

/-- The union of the types that a statement returns, if it returns. -/
def returns (s : BoundStmt) : Option Ty := s.info.returns

/-- Where a statement is written. -/
def span (s : BoundStmt) : Span := s.info.span

/-- A type as the right side of its declaration: an interface by its entries. -/
def declaredForm : Ty → Ty
  | .interface i => .interface { i with name := none }
  | t => t

/-- One line on what a statement declares or evaluates. -/
def summary : BoundStmt → String
  | .expr _ e => "expression: " ++ e.type.display
  | .varDecl _ name type _ isConst =>
    (if isConst then "const " else "var ") ++ name ++ ": " ++ type.display
  | .fnDecl _ f => "fn " ++ f.name ++ ": " ++ (Ty.function f.signature).display
  | .classDecl _ c _ _ =>
    let members := c.members.map fun m => m.name ++ ": " ++ m.type.display
    "class " ++ c.name ++ " \x7b " ++ joinWith ", " members ++ " \x7d"
  | .typeDecl _ name type => "type " ++ name ++ " = " ++ (declaredForm type).display
  | .block i _ | .ifElse i _ _ _ | .whileLoop i _ _ | .forIn i _ _ _ _ | .ret i _ | .jump i _ =>
    match i.returns with
    | some t => "statement returning " ++ t.display
    | none => "statement"

end BoundStmt

end ScriptCheck
