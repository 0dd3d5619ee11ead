import ScriptCheck.Proofs.Relabel.Syntax

/-!
Rendering expressions as tokens. Parentheses stand only where the precedence table asks for them: an
operand is enclosed if its outermost construct holds together less tightly than its place demands.
A renderer decides the kind and the value of every token, not where the token stands, and it may
write the name of an entry as a name or as a text.

        place                       enclosed if its tightness is
        left of a binary operator   below that of the operator
        right of a binary operator  not above that of the operator
        target of an assignment     not above that of an assignment
        behind a unary operator     below that of a unary operator
        before a call or an access  below that of a call
        anywhere else               never
-/

namespace ScriptCheck

/-- What a renderer decides about a token. -/
abbrev Lexeme := TokenKind × String

/-- The kind and the value of a token. -/
def Token.lexeme (t : Token) : Lexeme := (t.kind, t.value)

namespace Expr

/-- How tightly a binary operator holds its operands. -/
def operatorRank (kind : TokenKind) : Nat := ((power? kind).getD .lowest).rank

/-- How tightly the outermost construct of an expression holds together. -/
def tightness : Expr → Nat
  | .binary _ operator _ _ => operatorRank operator.kind
  | .assign _ _ _ _ => Power.assignment.rank
  | .unary _ _ _ => Power.unary.rank
  | _ => Power.call.rank

/-- Lexemes between parentheses if the condition holds. -/
def enclose (condition : Bool) (ls : List Lexeme) : List Lexeme :=
  if condition then (.openParen, "(") :: ls ++ [(.closeParen, ")")] else ls

/-- The lexeme of a literal. -/
def literalLexeme : Literal → Lexeme
  | .int n => (.number, Literal.display (.int n))
  | .float x => (.number, Literal.display (.float x))
  | .text s => (.text, s)
  | .bool true => (.kwTrue, "true")
  | .bool false => (.kwFalse, "false")

/-- The lexeme of a keyword. -/
def keywordLexeme : Keyword → Lexeme
  | .null => (.kwNull, "null")
  | .undefined => (.kwUndefined, "undefined")

/-- The lexeme of a name that is read. -/
def symbolLexeme (name : String) : Lexeme :=
  if name = "this" then (.kwThis, name) else (.identifier, name)

/-- Lists of lexemes with commas between them. -/
def separate : List (List Lexeme) → List Lexeme
  | [] => []
  | l :: ls => l ++ if ls.isEmpty then [] else (.comma, ",") :: separate ls

section

variable (quoted : String → Span → Bool)

mutual

/-- The lexemes of an expression; `quoted` says which names of entries are written as texts. -/
def render : Expr → List Lexeme
  | .literal _ value => [literalLexeme value]
  | .keyword _ word => [keywordLexeme word]
  | .symbol _ name => [symbolLexeme name]
  | .array _ elements => (.openBracket, "[") :: renderAll elements ++ [(.closeBracket, "]")]
  | .object _ entries =>
    (.openCurly, "\x7b") :: renderEntries entries ++ [(.closeCurly, "\x7d")]
  | .binary _ operator left right =>
    enclose (tightness left < operatorRank operator.kind) (render left) ++ operator.lexeme ::
      enclose (tightness right ≤ operatorRank operator.kind) (render right)
  | .unary _ operator operand =>
    operator.lexeme :: enclose (tightness operand < Power.unary.rank) (render operand)
  | .assign _ operator target value =>
    enclose (tightness target ≤ Power.assignment.rank) (render target) ++ operator.lexeme ::
      render value
  | .access _ receiver key =>
    enclose (tightness receiver < Power.call.rank) (render receiver) ++ renderAccess key
  | .call _ callee args =>
    enclose (tightness callee < Power.call.rank) (render callee) ++ (.openParen, "(") ::
      renderAll args ++ [(.closeParen, ")")]
  | .construct _ className _ args =>
    (.kwNew, "new") :: (.identifier, className) :: (.openParen, "(") :: renderAll args ++
      [(.closeParen, ")")]
termination_by structural e => e

/-- The lexemes of expressions with commas between them. -/
def renderAll : List Expr → List Lexeme
  | [] => []
  | e :: es => render e ++ if es.isEmpty then [] else (.comma, ",") :: renderAll es
termination_by structural es => es

/-- The lexemes of the key of an access. -/
def renderAccess : Key Expr → List Lexeme
  | .name text _ => [(.dot, "."), (.identifier, text)]
  | .computed e => (.openBracket, "[") :: render e ++ [(.closeBracket, "]")]
termination_by structural k => k

/-- The lexemes of the key of an entry. -/
def renderKey : Key Expr → List Lexeme
  | .name text span => [(if quoted text span then .text else .identifier, text)]
  | .computed e => (.openBracket, "[") :: render e ++ [(.closeBracket, "]")]
termination_by structural k => k

/-- The lexemes of entries with commas between them. -/
def renderEntries : List (Entry Expr) → List Lexeme
  | [] => []
  | ⟨key, value⟩ :: es =>
    renderKey key ++ (.colon, ":") :: render value ++
      if es.isEmpty then [] else (.comma, ",") :: renderEntries es
termination_by structural es => es

end

/-- The lexemes of an entry. -/
def renderEntry (e : Entry Expr) : List Lexeme :=
  renderKey quoted e.key ++ (.colon, ":") :: render quoted e.value

theorem renderAll_eq_separate (es : List Expr) :
    renderAll quoted es = separate (es.map (render quoted)) := by
  induction es with
  | nil => rfl
  | cons e es ih => rw [renderAll, ih, List.map_cons, separate, List.isEmpty_map]

theorem renderEntries_eq_separate (es : List (Entry Expr)) :
    renderEntries quoted es = separate (es.map (renderEntry quoted)) := by
  induction es with
  | nil => rfl
  | cons e es ih =>
    obtain ⟨key, value⟩ := e
    rw [renderEntries, ih, List.map_cons, separate, List.isEmpty_map]
    rfl

end

/-! ### Expressions that can be written -/

/-- Whether a token stands for a binary operator. -/
def isBinaryOperator (kind : TokenKind) : Bool :=
  match power? kind with
  | some .logical | some .relational | some .range | some .additive | some .multiplicative => true
  | _ => false

/-- Whether a token stands for an assignment. -/
def isAssignment (kind : TokenKind) : Bool := power? kind = some .assignment

/-- Whether a token stands for a unary operator. -/
def isUnaryOperator (kind : TokenKind) : Bool :=
  kind = .dash || kind = .bang || kind = .plusPlus || kind = .minusMinus

/-- Whether a literal can be written as one token: texts, truth values and the integers that are
not negative. -/
def isWritableLiteral : Literal → Bool
  | .int n => 0 ≤ n && n < integerLimit
  | .float _ => false
  | .text _ => true
  | .bool _ => true

mutual

/-- Whether every literal of an expression can be written and every operator is one. -/
def isWritable : Expr → Bool
  | .literal _ value => isWritableLiteral value
  | .keyword _ _ => true
  | .symbol _ _ => true
  | .array _ elements => allWritable elements
  | .object _ entries => entriesWritable entries
  | .binary _ operator left right =>
    isBinaryOperator operator.kind && isWritable left && isWritable right
  | .unary _ operator operand => isUnaryOperator operator.kind && isWritable operand
  | .assign _ operator target value =>
    isAssignment operator.kind && isWritable target && isWritable value
  | .access _ receiver key => isWritable receiver && keyWritable key
  | .call _ callee args => isWritable callee && allWritable args
  | .construct _ _ _ args => allWritable args
termination_by structural e => e

/-- Whether all expressions can be written. -/
def allWritable : List Expr → Bool
  | [] => true
  | e :: es => isWritable e && allWritable es
termination_by structural es => es

/-- Whether a key can be written. -/
def keyWritable : Key Expr → Bool
  | .name _ _ => true
  | .computed e => isWritable e
termination_by structural k => k

/-- Whether all entries can be written. -/
def entriesWritable : List (Entry Expr) → Bool
  | [] => true
  | ⟨key, value⟩ :: es => keyWritable key && isWritable value && entriesWritable es
termination_by structural es => es

end

end Expr

end ScriptCheck
