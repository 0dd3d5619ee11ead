import ScriptCheck.Token
import ScriptCheck.Ty.Assignable

/-!
Operators. Each table lists the uses of operators with the types of their operands and their
result; an operator is bound to the first use whose operand types accept the operands, so special
uses stand before general ones.
-/

namespace ScriptCheck

/-- What a binary operator computes. -/
inductive BinaryKind where
  | addition | subtraction | multiplication | division | modulo
  | equality | inequality | less | lessOrEqual | greater | greaterOrEqual
  | logicalAnd | logicalOr | range
deriving DecidableEq

namespace BinaryKind

/-- The name of an operation. -/
def name : BinaryKind → String
  | .addition => "Addition"
  | .subtraction => "Subtraction"
  | .multiplication => "Multiplication"
  | .division => "Division"
  | .modulo => "Modulo"
  | .equality => "Equality"
  | .inequality => "Inequality"
  | .less => "Less"
  | .lessOrEqual => "LessOrEqual"
  | .greater => "Greater"
  | .greaterOrEqual => "GreaterOrEqual"
  | .logicalAnd => "LogicalAnd"
  | .logicalOr => "LogicalOr"
  | .range => "Range"

/-- How an operation is written in messages. -/
def symbol : BinaryKind → String
  | .addition => "+"
  | .subtraction => "-"
  | .multiplication => "*"
  | .division => "/"
  | .modulo => "%"
  | .equality => "=="
  | .inequality => "!="
  | .less => "<"
  | .lessOrEqual => "<="
  | .greater => ">"
  | .greaterOrEqual => ">="
  | .logicalAnd => "&&"
  | .logicalOr => "||"
  | .range => ".."

/-- Whether the operands must be comparable with each other. -/
def comparesOperands : BinaryKind → Bool
  | .equality | .inequality | .less | .lessOrEqual | .greater | .greaterOrEqual => true
  | _ => false

end BinaryKind

/-- A use of a binary operator. -/
structure BinaryOperator where
  tokens : List TokenKind
  kind : BinaryKind
  left : Ty
  right : Ty
  result : Ty

/-- What a unary operator computes. -/
inductive UnaryKind where
  | negation | logicalNegation | increment | decrement
deriving DecidableEq

namespace UnaryKind

/-- The name of an operation. -/
def name : UnaryKind → String
  | .negation => "Negation"
  | .logicalNegation => "LogicalNegation"
  | .increment => "Increment"
  | .decrement => "Decrement"

/-- How an operation is written in messages. -/
def symbol : UnaryKind → String
  | .negation => "-"
  | .logicalNegation => "!"
  | .increment => "++"
  | .decrement => "--"

end UnaryKind

/-- A use of a unary operator. -/
structure UnaryOperator where
  tokens : List TokenKind
  kind : UnaryKind
  operand : Ty
  result : Ty

namespace BinaryOperator

open Ty (int float string bool any range number)

/-- The uses of an operation on numbers: integers give an integer, other numbers a float. -/
def arithmetic (tokens : List TokenKind) (kind : BinaryKind) : List BinaryOperator :=
  [⟨tokens, kind, int, int, int⟩, ⟨tokens, kind, number, number, float⟩]

/-- The four orderings on operands of one type. -/
def orderings (operand : Ty) : List BinaryOperator :=
  [⟨[.less], .less, operand, operand, bool⟩,
   ⟨[.lessEquals], .lessOrEqual, operand, operand, bool⟩,
   ⟨[.greater], .greater, operand, operand, bool⟩,
   ⟨[.greaterEquals], .greaterOrEqual, operand, operand, bool⟩]

/-- All uses of binary operators. A compound assignment uses the operator that it starts with. -/
def all : List BinaryOperator :=
  arithmetic [.plus, .plusEquals] .addition ++
  [⟨[.plus, .plusEquals], .addition, string, any, string⟩,
   ⟨[.plus, .plusEquals], .addition, any, string, string⟩] ++
  arithmetic [.dash, .minusEquals] .subtraction ++
  arithmetic [.star, .starEquals] .multiplication ++
  arithmetic [.slash, .slashEquals] .division ++
  arithmetic [.percent] .modulo ++
  orderings number ++ orderings string ++
  [⟨[.equals], .equality, any, any, bool⟩,
   ⟨[.notEquals], .inequality, any, any, bool⟩,
   ⟨[.and], .logicalAnd, any, any, bool⟩,
   ⟨[.or], .logicalOr, any, any, bool⟩,
   ⟨[.dotDot], .range, int, int, range⟩]

/-- The first use of an operator that accepts the operands. -/
def bind? (token : TokenKind) (left right : Ty) : Option BinaryOperator :=
  all.find? fun use =>
    use.tokens.contains token && left.isAssignableTo use.left && right.isAssignableTo use.right

end BinaryOperator

namespace UnaryOperator

open Ty (int float bool any number)

/-- All uses of unary operators. -/
def all : List UnaryOperator :=
  [⟨[.dash], .negation, int, int⟩,
   ⟨[.dash], .negation, float, float⟩,
   ⟨[.dash], .negation, number, float⟩,
   ⟨[.bang], .logicalNegation, any, bool⟩,
   ⟨[.plusPlus], .increment, int, int⟩,
   ⟨[.minusMinus], .decrement, int, int⟩]

/-- The first use of an operator that accepts the operand. -/
def bind? (token : TokenKind) (operand : Ty) : Option UnaryOperator :=
  all.find? fun use => use.tokens.contains token && operand.isAssignableTo use.operand

end UnaryOperator

end ScriptCheck
