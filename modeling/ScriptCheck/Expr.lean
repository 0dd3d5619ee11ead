import ScriptCheck.Literal
import ScriptCheck.Token

/-!
Expressions. Every expression has an id, by which later stages speak of it, and the span it was read
from. Operators are kept as the tokens that stand for them.
-/

namespace ScriptCheck

/-- What every expression has. -/
structure Node where
  id : Nat
  span : Span
deriving DecidableEq

/-- The values that stand for nothing. -/
inductive Keyword where
  | null
  | undefined
deriving DecidableEq

/-- How a keyword is spelled. -/
def Keyword.spelling : Keyword → String
  | .null => "null"
  | .undefined => "undefined"

/-- The key of a property or of an access: a name, or an expression between brackets. -/
inductive Key (ε : Type) where
  | name (text : String) (span : Span)
  | computed (key : ε)

/-- An entry of an object, `key: value`. -/
structure Entry (ε : Type) where
  key : Key ε
  value : ε

/-- An expression. -/
inductive Expr where
  | literal (node : Node) (value : Literal)
  | keyword (node : Node) (word : Keyword)
  | symbol (node : Node) (name : String)
  | array (node : Node) (elements : List Expr)
  | object (node : Node) (entries : List (Entry Expr))
  | binary (node : Node) (operator : Token) (left right : Expr)
  | unary (node : Node) (operator : Token) (operand : Expr)
  | assign (node : Node) (operator : Token) (target value : Expr)
  | access (node : Node) (object : Expr) (key : Key Expr)
  | call (node : Node) (callee : Expr) (args : List Expr)
  | construct (node : Node) (className : String) (classNode : Node) (args : List Expr)

namespace Expr

/-- The id and the span of an expression. -/
def node : Expr → Node
  | .literal n _ | .keyword n _ | .symbol n _ | .array n _ | .object n _ | .binary n _ _ _
  | .unary n _ _ | .assign n _ _ _ | .access n _ _ | .call n _ _ | .construct n _ _ _ => n

/-- The id of an expression. -/
def id (e : Expr) : Nat := e.node.id

/-- Where an expression is written. -/
def span (e : Expr) : Span := e.node.span

end Expr

end ScriptCheck
