import ScriptCheck.Diagnostic
import ScriptCheck.Token

/-!
Token streams and the steps that read from them. A stream always ends with a token of kind `eof`,
on which it stays. Beside the tokens it keeps the names that are known to be types and the next id
for an expression; a step that fails leaves the stream where it failed.
-/

namespace ScriptCheck

/-- Type names that are known from the start. -/
def intrinsicTypeNames : List String :=
  ["any", "int", "float", "string", "bool", "void", "null", "undefined", "Range", "Array"]

/-- Tokens that are being read: the current one and those behind it. -/
structure TokenStream where
  file : String
  current : Token
  upcoming : List Token
  /-- The end of the token read last, or the start of the file. -/
  previousEnd : Position
  typeNames : List String
  nextId : Nat

namespace TokenStream

/-- The start of a list of tokens, which gets an end if it lacks one. -/
def ofTokens (tokens : List Token) (file : String) : TokenStream :=
  let start : Position := ⟨0, file⟩
  let last := Token.endOf ⟨start, start⟩
  let closed := if tokens.getLast?.map Token.kind = some .eof then tokens else tokens ++ [last]
  { file, current := closed.headD last, upcoming := closed.tail, previousEnd := start,
    typeNames := intrinsicTypeNames, nextId := 0 }

/-- The kind of the current token. -/
def kind (s : TokenStream) : TokenKind := s.current.kind

/-- How many tokens stand behind the current one. -/
def remaining (s : TokenStream) : Nat := s.upcoming.length

/-- The token `n` places ahead, or the last one. -/
def peek (s : TokenStream) (n : Nat) : Token :=
  match (s.current :: s.upcoming)[n]? with
  | some t => t
  | none => s.upcoming.getLastD s.current

/-- The start of the current token. -/
def position (s : TokenStream) : Position := s.current.span.start

/-- From a position to the end of the token read last. -/
def spanFrom (s : TokenStream) (start : Position) : Span := ⟨start, s.previousEnd⟩

/-- The stream behind its current token, unless that is the last one. -/
def next (s : TokenStream) : TokenStream :=
  match s.upcoming with
  | [] => s
  | t :: ts => { s with current := t, upcoming := ts, previousEnd := s.current.span.stop }

/-- Reading takes one token off those that stand behind the current one. -/
@[simp] theorem remaining_next (s : TokenStream) : s.next.remaining = s.remaining - 1 := by
  unfold next remaining
  split <;> simp_all

/-- Adds a name to the known type names. -/
def register (s : TokenStream) (name : String) : TokenStream :=
  if s.typeNames.contains name then s else { s with typeNames := s.typeNames ++ [name] }

/-- Whether a name is known to be a type. -/
def isTypeName (s : TokenStream) (name : String) : Bool := s.typeNames.contains name

/-- The failure at the current token, with a message. -/
def unexpected (s : TokenStream) (message : String) : Failure :=
  .of (.unexpectedTokenDetailed s.current.value message) s.position

/-- The failure at the current token. -/
def unexpectedToken (s : TokenStream) : Failure :=
  .of (.unexpectedToken s.current.value) s.position

end TokenStream

/-- A step that reads from a token stream. -/
abbrev Parse := EStateM Failure TokenStream

namespace Parse

/-- The current token. -/
def current : Parse Token := return (← get).current

/-- The kind of the current token. -/
def kind : Parse TokenKind := return (← get).kind

/-- The kind of the token `n` places ahead. -/
def lookahead (n : Nat) : Parse TokenKind := return ((← get).peek n).kind

/-- The start of the current token. -/
def position : Parse Position := return (← get).position

/-- How many tokens stand behind the current one. -/
def remaining : Parse Nat := return (← get).remaining

/-- Reads the current token. -/
def advance : Parse Token := do
  let s ← get
  set s.next
  return s.current

/-- Draws the next id. -/
def freshId : Parse Nat := do
  let s ← get
  set { s with nextId := s.nextId + 1 }
  return s.nextId

/-- Adds a name to the known type names. -/
def register (name : String) : Parse Unit := modify (·.register name)

/-- The span from a position to the end of the token read last. -/
def spanFrom (start : Position) : Parse Span := return (← get).spanFrom start

/-- Fails at the current token. -/
def unexpectedToken {α : Type} : Parse α := do throw (← get).unexpectedToken

/-- Fails at the current token, with a message. -/
def unexpected {α : Type} (message : String) : Parse α := do throw ((← get).unexpected message)

/-- Reads a token of the given kind. -/
def expect (wanted : TokenKind) : Parse Token := do
  if (← kind) = wanted then advance else unexpectedToken

/-- Reads a token of the given kind; the message says what else is missing. -/
def expectOr (wanted : TokenKind) (message : String) : Parse Token := do
  if (← kind) = wanted then advance else unexpected message

/-- Reads items up to a token of the given kind, which stays; an item is told how many stand before
it. The fuel bounds the number of items. -/
def itemsUntil {α : Type} (close : TokenKind) (item : Nat → Parse α) : Nat → Nat → Parse (List α)
  | 0, _ => throw .stuck
  | fuel + 1, index => do
    if (← kind) = close then return []
    else
      let a ← item index
      let rest ← itemsUntil close item fuel (index + 1)
      return a :: rest

/-- Reads items up to a token of the given kind, which stays. Every item takes at least one token,
so that there are no more items than tokens. -/
def manyUntil {α : Type} (close : TokenKind) (item : Nat → Parse α) : Parse (List α) := do
  itemsUntil close item ((← remaining) + 1) 0

/-- Reads the comma behind an item, unless a token of the given kind closes the list there. -/
def comma (close : TokenKind) : Parse Unit := do
  if (← kind) = close then return () else discard (expect .comma)

/-- Reads items up to a token of the given kind, which stays. Commas stand between the items and may
stand behind the last. -/
def commaUntil {α : Type} (close : TokenKind) (item : Nat → Parse α) : Parse (List α) :=
  manyUntil close fun index => do
    let a ← item index
    comma close
    return a

end Parse

/-- How tightly an operator binds its operands. -/
inductive Power where
  | lowest | comma | assignment | logical | relational | range | additive | multiplicative | unary
  | call | member | primary
deriving DecidableEq

/-- Tighter operators have higher ranks. -/
def Power.rank : Power → Nat
  | .lowest => 0
  | .comma => 1
  | .assignment => 2
  | .logical => 3
  | .relational => 4
  | .range => 5
  | .additive => 6
  | .multiplicative => 7
  | .unary => 8
  | .call => 9
  | .member => 10
  | .primary => 11

end ScriptCheck
