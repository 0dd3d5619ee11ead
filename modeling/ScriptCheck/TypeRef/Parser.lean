import ScriptCheck.Number.Reading
import ScriptCheck.Token.Stream
import ScriptCheck.TypeRef

/-!
Reading type references. A reference is a name with optional arguments, an interface, a function or
a literal, followed by brackets that make it an array and by the members of a union or an
intersection, of which `&` binds tighter. Members of a chain of equal operators form one list.
-/

namespace ScriptCheck

/-- The number that a text stands for: a floating-point number if it has a point, else an
integer. -/
def Literal.ofNumber? (text : String) : Option Literal :=
  if text.toList.contains '.' then (float? text).map Literal.float
  else (integer? text).map Literal.int

/-- Reads the number of the current token. -/
def Parse.number : Parse Literal := do
  let t ← Parse.current
  match Literal.ofNumber? t.value with
  | some literal => discard Parse.advance; return literal
  | none => throw (.of (.numberParseError t.value) t.span.start)

namespace TypeRef

open Parse

/-- How tightly a token binds the type before it. -/
def power? : TokenKind → Option Power
  | .pipe => some .logical
  | .ampersand => some .relational
  | .openBracket => some .call
  | _ => none

/-- The arguments of a name, between angle brackets. There need not be any. -/
def parseArgs (self : Power → Parse TypeRef) : Parse (List TypeRef) := do
  if (← kind) = .less then
    discard advance
    let args ← commaUntil .greater fun _ => self .lowest
    discard (expect .greater)
    return args
  else return []

/-- A name with optional arguments. -/
def parseNamed (self : Power → Parse TypeRef) : Parse TypeRef := do
  let t ← advance
  let args ← parseArgs self
  return .named t.value args (← spanFrom t.span.start)

/-- A number, a text or a truth value. -/
def parseLiteral : Parse TypeRef := do
  let t ← current
  match t.kind with
  | .number => return .literal (← number) t.span
  | .kwTrue => discard advance; return .literal (.bool true) t.span
  | .kwFalse => discard advance; return .literal (.bool false) t.span
  | _ => discard advance; return .literal (.text t.value) t.span

/-- An index signature, `[key]: T`. -/
def parseIndex (self : Power → Parse TypeRef) : Parse (IndexRef TypeRef) := do
  discard advance
  let key ← advance
  discard (expect .closeBracket)
  discard (expect .colon)
  let type ← self .lowest
  return ⟨key.value, key.span, type⟩

/-- The mark of a property that cannot be written to. There need not be one. -/
def parseConst : Parse Bool := do
  if (← kind) = .kwConst then
    discard advance
    return true
  else return false

/-- A property, `name: T`. -/
def parseProperty (self : Power → Parse TypeRef) : Parse (PropertyRef TypeRef) := do
  let isConst ← parseConst
  let name ← expectOr .identifier "expected property name in interface"
  discard (expect .colon)
  let type ← self .lowest
  return ⟨name.value, type, !isConst⟩

/-- The comma or semicolon behind an entry of an interface. There need not be one. -/
def skipSeparator : Parse Unit := do
  let k ← kind
  if k = .comma || k = .semicolon then discard advance else return ()

/-- One entry of an interface and what may follow it. -/
def parseEntry (self : Power → Parse TypeRef) :
    Parse (PropertyRef TypeRef ⊕ IndexRef TypeRef) := do
  if (← kind) = .openBracket then
    let index ← parseIndex self
    skipSeparator
    return .inr index
  else
    let property ← parseProperty self
    skipSeparator
    return .inl property

/-- An interface: properties and index signatures between curly brackets. -/
def parseInterface (self : Power → Parse TypeRef) : Parse TypeRef := do
  let start := (← expect .openCurly).span.start
  let entries ← manyUntil .closeCurly fun _ => parseEntry self
  discard (expect .closeCurly)
  return .interface (entries.filterMap Sum.getLeft?) (entries.filterMap Sum.getRight?)
    (← spanFrom start)

/-- A parameter of a function type. One without a name is called by its index. -/
def parseParam (self : Power → Parse TypeRef) (index : Nat) : Parse (ParamRef TypeRef) := do
  let type ← self .lowest
  if (← kind) = .identifier then
    let name ← advance
    return ⟨name.value, type⟩
  else return ⟨s!"arg{index}", type⟩

/-- A function type: parameters between parentheses, `::` and a result. -/
def parseFunction (self : Power → Parse TypeRef) : Parse TypeRef := do
  let start := (← expect .openParen).span.start
  let params ← commaUntil .closeParen (parseParam self)
  discard (expect .closeParen)
  discard (expectOr .colonColon "expected `::` and a return type")
  let result ← self .lowest
  return .function params result (← spanFrom start)

/-- A type without the operators behind it. -/
def parsePrimary (self : Power → Parse TypeRef) : Parse TypeRef := do
  match ← kind with
  | .identifier | .kwNull | .kwUndefined => parseNamed self
  | .openCurly => parseInterface self
  | .openParen => parseFunction self
  | .number | .text | .kwTrue | .kwFalse => parseLiteral
  | _ => unexpected "expected a type"

/-- The kinds of types that have members with a mark between them. -/
inductive Compound where
  | union
  | intersection

namespace Compound

/-- The type of a kind that has the given members. -/
def make : Compound → List TypeRef → Span → TypeRef
  | .union => .union
  | .intersection => .intersection

/-- The members of a type of a kind, or the type itself if it is of another. -/
def members : Compound → TypeRef → List TypeRef
  | .union, .union members _ => members
  | .intersection, .intersection members _ => members
  | _, r => [r]

/-- The type with the members of a type and a member to its right. -/
def join (c : Compound) (left right : TypeRef) : TypeRef :=
  c.make (c.members left ++ [right]) (left.span.join right.span)

end Compound

/-- The operator at the current token, applied to the type before it. -/
def parseOperator (self : Power → Parse TypeRef) (left : TypeRef) (power : Power) :
    Parse TypeRef := do
  match ← kind with
  | .pipe => discard advance; return Compound.union.join left (← self power)
  | .ampersand => discard advance; return Compound.intersection.join left (← self power)
  | _ =>
    discard (expect .openBracket)
    discard (expect .closeBracket)
    return .array left (← spanFrom left.span.start)

/-- The operators behind a type that bind tighter than `power`. Brackets belong to a type only if
nothing stands between them. -/
def parseOperators (self : Power → Parse TypeRef) (power : Power) : Nat → TypeRef → Parse TypeRef
  | 0, _ => throw .stuck
  | fuel + 1, left => do
    let k ← kind
    match power? k with
    | none => return left
    | some p =>
      if p.rank ≤ power.rank then return left
      else if k = .openBracket && (← lookahead 1) ≠ .closeBracket then return left
      else
        let joined ← parseOperator self left p
        parseOperators self power fuel joined

/-- A type whose operators bind tighter than `power`; `self` reads the types inside it. -/
def parseStep (self : Power → Parse TypeRef) (power : Power) : Parse TypeRef := do
  let left ← parsePrimary self
  parseOperators self power ((← remaining) + 1) left

/-- A type nested no deeper than the fuel. -/
def parseWithin : Nat → Power → Parse TypeRef
  | 0, _ => throw .stuck
  | fuel + 1, power => parseStep (parseWithin fuel) power

/-- A type whose operators bind tighter than `power`. A type inside another starts at a later token,
so that types nest no deeper than there are tokens. -/
def parse (power : Power) : Parse TypeRef := do
  parseWithin ((← remaining) + 1) power

end TypeRef

end ScriptCheck
