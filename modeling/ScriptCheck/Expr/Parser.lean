import ScriptCheck.Expr
import ScriptCheck.TypeRef.Parser

/-!
Reading expressions by the power of their operators. An operand is followed by the operators that
bind tighter than the power it is read at; a binary operator reads its right operand at its own
power, so that chains of one power lean to the left, while an assignment reads its value at a lower
power and leans to the right. An expression draws its id behind the ids of its parts.
-/

namespace ScriptCheck.Expr

open Parse

/-- How tightly a token binds the expression before it. -/
def power? : TokenKind → Option Power
  | .assignment | .plusEquals | .minusEquals | .starEquals | .slashEquals => some .assignment
  | .and | .or => some .logical
  | .less | .lessEquals | .greater | .greaterEquals | .equals | .notEquals => some .relational
  | .dotDot => some .range
  | .plus | .dash => some .additive
  | .star | .slash | .percent => some .multiplicative
  | .openParen => some .call
  | .dot | .openBracket => some .member
  | _ => none

/-- A literal, a keyword or a name. -/
def parseAtom : Parse Expr := do
  let id ← freshId
  let t ← current
  let node : Node := ⟨id, t.span⟩
  match t.kind with
  | .number => return .literal node (← number)
  | .text => discard advance; return .literal node (.text t.value)
  | .kwTrue => discard advance; return .literal node (.bool true)
  | .kwFalse => discard advance; return .literal node (.bool false)
  | .kwNull => discard advance; return .keyword node .null
  | .kwUndefined => discard advance; return .keyword node .undefined
  | .identifier | .kwThis => discard advance; return .symbol node t.value
  | _ => unexpectedToken

/-- A unary operator before its operand. -/
def parseUnary (self : Power → Parse Expr) : Parse Expr := do
  let operator ← advance
  let operand ← self .unary
  return .unary ⟨← freshId, operator.span.join operand.span⟩ operator operand

/-- An expression between parentheses, which leave no trace. -/
def parseGroup (self : Power → Parse Expr) : Parse Expr := do
  discard advance
  let e ← self .lowest
  discard (expect .closeParen)
  return e

/-- Arguments between parentheses. -/
def parseArgs (self : Power → Parse Expr) : Parse (List Expr) := do
  discard (expect .openParen)
  let args ← commaUntil .closeParen fun _ => self .comma
  discard (expect .closeParen)
  return args

/-- An array: elements between brackets. -/
def parseArray (self : Power → Parse Expr) : Parse Expr := do
  let start := (← advance).span.start
  let elements ← commaUntil .closeBracket fun _ => self .comma
  discard (expect .closeBracket)
  let span ← spanFrom start
  return .array ⟨← freshId, span⟩ elements

/-- The key of an entry: a name, a text, or an expression between brackets. -/
def parseKey (self : Power → Parse Expr) : Parse (Key Expr) := do
  match ← kind with
  | .identifier | .text =>
    let t ← advance
    return .name t.value t.span
  | .openBracket =>
    discard advance
    let key ← self .lowest
    discard (expect .closeBracket)
    return .computed key
  | _ => unexpected "expected property name in object literal"

/-- One entry of an object. -/
def parseEntry (self : Power → Parse Expr) : Parse (Entry Expr) := do
  let key ← parseKey self
  discard (expect .colon)
  let value ← self .comma
  return ⟨key, value⟩

/-- An object: entries between curly brackets. -/
def parseObject (self : Power → Parse Expr) : Parse Expr := do
  let start := (← advance).span.start
  let entries ← commaUntil .closeCurly fun _ => parseEntry self
  discard (expect .closeCurly)
  let span ← spanFrom start
  return .object ⟨← freshId, span⟩ entries

/-- The construction of an instance, `new C(args)`. The class name draws its id first. -/
def parseConstruct (self : Power → Parse Expr) : Parse Expr := do
  let start := (← advance).span.start
  let name ← expectOr .identifier "expected class name after `new`"
  let classNode : Node := ⟨← freshId, name.span⟩
  let args ← parseArgs self
  let span ← spanFrom start
  return .construct ⟨← freshId, span⟩ name.value classNode args

/-- An expression without the operators behind it. -/
def parsePrimary (self : Power → Parse Expr) : Parse Expr := do
  match ← kind with
  | .number | .identifier | .text | .kwTrue | .kwFalse | .kwNull | .kwUndefined | .kwThis =>
    parseAtom
  | .dash | .bang | .plusPlus | .minusMinus => parseUnary self
  | .openParen => parseGroup self
  | .openBracket => parseArray self
  | .openCurly => parseObject self
  | .kwNew => parseConstruct self
  | _ => unexpectedToken

/-- A binary operator and its right operand. -/
def parseBinary (self : Power → Parse Expr) (left : Expr) (power : Power) : Parse Expr := do
  let operator ← advance
  let right ← self power
  return .binary ⟨← freshId, left.span.join right.span⟩ operator left right

/-- An assignment and its value. -/
def parseAssign (self : Power → Parse Expr) (target : Expr) : Parse Expr := do
  let operator ← advance
  let value ← self .comma
  return .assign ⟨← freshId, target.span.join value.span⟩ operator target value

/-- The arguments of a call. -/
def parseCall (self : Power → Parse Expr) (callee : Expr) : Parse Expr := do
  let args ← parseArgs self
  let span ← spanFrom callee.span.start
  return .call ⟨← freshId, span⟩ callee args

/-- A point and the name of a member. -/
def parseMember (object : Expr) : Parse Expr := do
  discard advance
  let name ← expectOr .identifier "expected property name after `.`"
  let span ← spanFrom object.span.start
  return .access ⟨← freshId, span⟩ object (.name name.value name.span)

/-- An index between brackets. -/
def parseIndex (self : Power → Parse Expr) (object : Expr) : Parse Expr := do
  discard advance
  let key ← self .lowest
  discard (expect .closeBracket)
  let span ← spanFrom object.span.start
  return .access ⟨← freshId, span⟩ object (.computed key)

/-- The operator at the current token, applied to the expression before it. -/
def parseOperator (self : Power → Parse Expr) (left : Expr) (power : Power) : Parse Expr := do
  match power with
  | .assignment => parseAssign self left
  | .call => parseCall self left
  | .member => if (← kind) = .dot then parseMember left else parseIndex self left
  | _ => parseBinary self left power

/-- The operators behind an expression that bind tighter than `power`. -/
def parseOperators (self : Power → Parse Expr) (power : Power) : Nat → Expr → Parse Expr
  | 0, _ => throw .stuck
  | fuel + 1, left => do
    match power? (← kind) with
    | none => return left
    | some p =>
      if p.rank ≤ power.rank then return left
      else
        let joined ← parseOperator self left p
        parseOperators self power fuel joined

/-- An expression whose operators bind tighter than `power`; `self` reads the expressions inside. -/
def parseStep (self : Power → Parse Expr) (power : Power) : Parse Expr := do
  let left ← parsePrimary self
  parseOperators self power ((← remaining) + 1) left

/-- An expression nested no deeper than the fuel. -/
def parseWithin : Nat → Power → Parse Expr
  | 0, _ => throw .stuck
  | fuel + 1, power => parseStep (parseWithin fuel) power

/-- An expression whose operators bind tighter than `power`. An expression inside another starts at a
later token, so that expressions nest no deeper than there are tokens. -/
def parse (power : Power) : Parse Expr := do
  parseWithin ((← remaining) + 1) power

end ScriptCheck.Expr
