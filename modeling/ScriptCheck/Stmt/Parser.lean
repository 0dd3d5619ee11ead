import ScriptCheck.Expr.Parser
import ScriptCheck.Stmt

/-!
Reading statements and programs. A statement that starts with the name of a known type and goes on
as only a type can is a declaration; classes, interfaces and type declarations make their names
known as soon as they are read.
-/

namespace ScriptCheck.Stmt

open Parse

/-- Whether the stream stands before a declaration that starts with its type. -/
def startsDeclaration (s : TokenStream) : Bool :=
  let nameable :=
    s.kind = .identifier || s.kind = .kwNull || s.kind = .kwUndefined
  if nameable && s.isTypeName s.current.value then
    match (s.peek 1).kind with
    | .identifier | .less | .pipe | .ampersand => true
    | .openBracket => (s.peek 2).kind = .closeBracket
    | _ => false
  else false

/-- Whether a declaration that starts with its type comes next. -/
def beforeDeclaration : Parse Bool := return startsDeclaration (← get)

/-- An initial value behind a mark of assignment. There need not be one. -/
def parseInitializer : Parse (Option Expr) := do
  if (← kind) = .assignment then
    discard advance
    return some (← Expr.parse .lowest)
  else return none

/-- Rejects a variable without a type and a value, and a constant without a value. -/
def requireValue (isConst : Bool) (type : Option TypeRef) (value : Option Expr) : Parse Unit :=
  if value.isNone && type.isNone then unexpected "expected rhs or explicit type"
  else if value.isNone && isConst then unexpected "expected rhs in constant definition"
  else return ()

/-- A variable behind its type. Without a type it needs a value, and so does a constant. -/
def parseVariable (start : Position) (isConst : Bool) (type : Option TypeRef) : Parse Stmt := do
  let name ← expectOr .identifier "expected identifier during variable declaration"
  let value ← parseInitializer
  requireValue isConst type value
  discard (expect .semicolon)
  return .varDecl (← spanFrom start) name.value isConst type value

/-- A variable behind `let` or `const`. A constant may have a type. -/
def parseVarDecl : Parse Stmt := do
  let first ← advance
  let start := first.span.start
  let isConst : Bool := first.kind = .kwConst
  let k ← kind
  let k' ← lookahead 1
  if first.kind = .kwLet || (k = .identifier && k' = .assignment) then
    parseVariable start isConst none
  else
    let type ← TypeRef.parse .lowest
    parseVariable start isConst (some type)

/-- Statements between curly brackets, and where they are written. -/
def parseBlockOf (self : Parse Stmt) : Parse Block := do
  let start := (← expect .openCurly).span.start
  let body ← manyUntil .closeCurly fun _ => self
  discard (expect .closeCurly)
  return ⟨body, ← spanFrom start⟩

/-- A condition and the statements for both outcomes. -/
def parseIf (self : Parse Stmt) : Parse Stmt := do
  let start := (← advance).span.start
  let condition ← Expr.parse .lowest
  let onTrue ← self
  if (← kind) = .kwElse then
    discard advance
    let onFalse ← self
    return .ifElse (← spanFrom start) condition onTrue (some onFalse)
  else return .ifElse (← spanFrom start) condition onTrue none

/-- A loop with a condition. -/
def parseWhile (self : Parse Stmt) : Parse Stmt := do
  let start := (← advance).span.start
  let condition ← Expr.parse .lowest
  let body ← self
  return .whileLoop (← spanFrom start) condition body

/-- A loop over the items of a value. -/
def parseFor (self : Parse Stmt) : Parse Stmt := do
  let start := (← advance).span.start
  let name ← expectOr .identifier "expected loop variable after `for`"
  discard (expect .kwIn)
  let iterable ← Expr.parse .lowest
  let body ← parseBlockOf self
  return .forIn (← spanFrom start) name.value iterable body.span body.body

/-- A parameter of a function. -/
def parseParam : Parse Param := do
  let start ← position
  let type ← TypeRef.parse .lowest
  let name ← expectOr .identifier "expected parameter name after its type"
  return ⟨name.value, type, ← spanFrom start⟩

/-- The result type of a function. There need not be one. -/
def parseResult : Parse (Option TypeRef) := do
  if (← kind) = .colonColon then
    discard advance
    return some (← TypeRef.parse .lowest)
  else return none

/-- A function. -/
def parseFn (self : Parse Stmt) : Parse (FnDecl Stmt) := do
  let start := (← expect .kwFn).span.start
  let name ← expectOr .identifier "expected function name"
  discard (expect .openParen)
  let params ← commaUntil .closeParen fun _ => parseParam
  discard (expect .closeParen)
  let result ← parseResult
  let body ← parseBlockOf self
  return ⟨name.value, params, result, body.body, body.span, ← spanFrom start⟩

/-- A return from a function, with or without a value. -/
def parseReturn : Parse Stmt := do
  let start := (← advance).span.start
  if (← kind) = .semicolon then
    discard (expect .semicolon)
    return .ret (← spanFrom start) none
  else
    let value ← Expr.parse .lowest
    discard (expect .semicolon)
    return .ret (← spanFrom start) (some value)

/-- A `break` or a `continue`. -/
def parseJump : Parse Stmt := do
  let t ← advance
  discard (expect .semicolon)
  return .jump (← spanFrom t.span.start) (t.kind = .kwContinue)

/-- Names with commas between them, of which there is at least one. -/
def parseNames : Nat → Parse (List Name)
  | 0 => throw .stuck
  | fuel + 1 => do
    let t ← expect .identifier
    if (← kind) = .comma then
      discard advance
      let rest ← parseNames fuel
      return ⟨t.value, t.span⟩ :: rest
    else return [⟨t.value, t.span⟩]

/-- The class that a class extends. There need not be one. -/
def parseSuperclass : Parse (Option Name) := do
  if (← kind) = .kwExtends then
    discard advance
    let t ← expect .identifier
    return some ⟨t.value, t.span⟩
  else return none

/-- The classes and interfaces that a class mixes in. There need not be any. -/
def parseMixins : Parse (List Name) := do
  if (← kind) = .kwMixin then
    discard advance
    parseNames ((← remaining) + 1)
  else return []

/-- Adds the modifier that a token stands for, if it stands for one. -/
def addModifier? (m : Modifiers) : TokenKind → Option Modifiers
  | .kwPublic => some { m with isPublic := true }
  | .kwPrivate => some { m with isPrivate := true }
  | .kwStatic => some { m with isStatic := true }
  | .kwConst => some { m with isConst := true }
  | _ => none

/-- The modifiers before a member, in any order. -/
def parseModifiers : Nat → Modifiers → Parse Modifiers
  | 0, _ => throw .stuck
  | fuel + 1, m => do
    match addModifier? m (← kind) with
    | some m' => discard advance; parseModifiers fuel m'
    | none => return m

/-- A field or a method of a class. -/
def parseMember (self : Parse Stmt) : Parse (FieldDecl ⊕ MethodDecl Stmt) := do
  let start ← position
  let modifiers ← parseModifiers ((← remaining) + 1) .none
  if (← kind) = .kwFn then
    let function ← parseFn self
    return .inr ⟨modifiers, function⟩
  else
    let type ← TypeRef.parse .lowest
    let name ← expectOr .identifier "expected field name after its type"
    let value ← parseInitializer
    discard (expect .semicolon)
    return .inl ⟨name.value, modifiers, type, value, ← spanFrom start⟩

/-- A class. Its name is a type from here on. -/
def parseClass (self : Parse Stmt) : Parse Stmt := do
  let start := (← advance).span.start
  let name ← expectOr .identifier "expected class name"
  register name.value
  let superclass ← parseSuperclass
  let mixins ← parseMixins
  discard (expect .openCurly)
  let members ← manyUntil .closeCurly fun _ => parseMember self
  discard (expect .closeCurly)
  return .classDecl (← spanFrom start) name.value superclass mixins
    (members.filterMap Sum.getLeft?) (members.filterMap Sum.getRight?)

/-- An interface with a name, which is a type from here on. -/
def parseInterface : Parse Stmt := do
  let start := (← advance).span.start
  let name ← expectOr .identifier "expected interface name"
  register name.value
  let type ← TypeRef.parseInterface TypeRef.parse
  return .typeDecl (← spanFrom start) name.value type

/-- A name for a type, which is a type from here on. -/
def parseTypeDecl : Parse Stmt := do
  let start := (← advance).span.start
  let name ← expectOr .identifier "expected type name"
  register name.value
  discard (expect .assignment)
  let type ← TypeRef.parse .lowest
  discard (expect .semicolon)
  return .typeDecl (← spanFrom start) name.value type

/-- A variable that starts with its type. -/
def parseTyped : Parse Stmt := do
  let start ← position
  let type ← TypeRef.parse .lowest
  parseVariable start false (some type)

/-- An expression as a statement. -/
def parseExpr : Parse Stmt := do
  let e ← Expr.parse .lowest
  discard (expect .semicolon)
  return .expr (← spanFrom e.span.start) e

/-- A variable that starts with its type, or an expression. -/
def parsePlain : Parse Stmt := do
  if ← beforeDeclaration then parseTyped else parseExpr

/-- A block as a statement. -/
def parseBlockStmt (self : Parse Stmt) : Parse Stmt := do
  let block ← parseBlockOf self
  return .block block.span block.body

/-- A statement; `self` reads the statements inside it. -/
def parseStep (self : Parse Stmt) : Parse Stmt := do
  match ← kind with
  | .kwConst | .kwLet => parseVarDecl
  | .kwIf => parseIf self
  | .kwWhile => parseWhile self
  | .kwFor => parseFor self
  | .openCurly => parseBlockStmt self
  | .kwFn => return .fnDecl (← parseFn self)
  | .kwReturn => parseReturn
  | .kwBreak | .kwContinue => parseJump
  | .kwClass => parseClass self
  | .kwInterface => parseInterface
  | .kwType => parseTypeDecl
  | _ => parsePlain

/-- A statement nested no deeper than the fuel. -/
def parseWithin : Nat → Parse Stmt
  | 0 => throw .stuck
  | fuel + 1 => parseStep (parseWithin fuel)

/-- A statement. A statement inside another starts at a later token, so that statements nest no
deeper than there are tokens. -/
def parse : Parse Stmt := do
  parseWithin ((← remaining) + 1)

/-- Statements between curly brackets. -/
def parseBlock : Parse Block := parseBlockOf parse

end Stmt

/-- Statements up to the end of the stream, as a program that starts at the given position. -/
def Block.parseFrom (start : Position) : Parse Block := do
  let body ← Parse.manyUntil .eof fun _ => Stmt.parse
  return ⟨body, ← Parse.spanFrom start⟩

/-- A program, which starts where its file does. -/
def Block.parse : Parse Block := do
  parseFrom ⟨0, (← get).file⟩

end ScriptCheck
