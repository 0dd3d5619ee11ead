import ScriptCheck.Source.Position

/-!
Tokens: the words, numbers, texts and marks that source text is made of. Every token has a kind, a
value and the span it was read from. The last token of a source is the one that marks its end.
-/

namespace ScriptCheck

/-- The kinds of tokens. Reserved words start with `kw`. -/
inductive TokenKind where
  | eof | number | text | identifier | openBracket | closeBracket | openCurly | closeCurly
  | openParen | closeParen | assignment | equals | bang | notEquals | less | lessEquals | greater
  | greaterEquals | or | and | pipe | ampersand | dot | dotDot | semicolon | colon | colonColon
  | comma | plusPlus | minusMinus | plusEquals | minusEquals | slashEquals | starEquals | plus
  | dash | slash | star | percent | kwLet | kwConst | kwNew | kwFn | kwReturn | kwIf | kwElse
  | kwWhile | kwFor | kwIn | kwBreak | kwContinue | kwClass | kwExtends | kwMixin | kwInterface
  | kwType | kwThis | kwTrue | kwFalse | kwNull | kwUndefined | kwPrivate | kwPublic | kwStatic
deriving DecidableEq

namespace TokenKind

/-- Every kind once. -/
def all : List TokenKind :=
  [.eof, .number, .text, .identifier, .openBracket, .closeBracket, .openCurly, .closeCurly,
   .openParen, .closeParen, .assignment, .equals, .bang, .notEquals, .less, .lessEquals, .greater,
   .greaterEquals, .or, .and, .pipe, .ampersand, .dot, .dotDot, .semicolon, .colon, .colonColon,
   .comma, .plusPlus, .minusMinus, .plusEquals, .minusEquals, .slashEquals, .starEquals, .plus,
   .dash, .slash, .star, .percent, .kwLet, .kwConst, .kwNew, .kwFn, .kwReturn, .kwIf, .kwElse,
   .kwWhile, .kwFor, .kwIn, .kwBreak, .kwContinue, .kwClass, .kwExtends, .kwMixin, .kwInterface,
   .kwType, .kwThis, .kwTrue, .kwFalse, .kwNull, .kwUndefined, .kwPrivate, .kwPublic, .kwStatic]

/-- The name of a kind. -/
def name : TokenKind → String
  | .eof => "EOF"
  | .number => "Number"
  | .text => "String"
  | .identifier => "Identifier"
  | .openBracket => "OpenBracket"
  | .closeBracket => "CloseBracket"
  | .openCurly => "OpenCurly"
  | .closeCurly => "CloseCurly"
  | .openParen => "OpenParen"
  | .closeParen => "CloseParen"
  | .assignment => "Assignment"
  | .equals => "Equals"
  | .bang => "Not"
  | .notEquals => "NotEquals"
  | .less => "Less"
  | .lessEquals => "LessEquals"
  | .greater => "Greater"
  | .greaterEquals => "GreaterEquals"
  | .or => "Or"
  | .and => "And"
  | .pipe => "Pipe"
  | .ampersand => "Ampersand"
  | .dot => "Dot"
  | .dotDot => "DotDot"
  | .semicolon => "Semicolon"
  | .colon => "Colon"
  | .colonColon => "ColonColon"
  | .comma => "Comma"
  | .plusPlus => "PlusPlus"
  | .minusMinus => "MinusMinus"
  | .plusEquals => "PlusEquals"
  | .minusEquals => "MinusEquals"
  | .slashEquals => "SlashEquals"
  | .starEquals => "StarEquals"
  | .plus => "Plus"
  | .dash => "Dash"
  | .slash => "Slash"
  | .star => "Star"
  | .percent => "Percent"
  | .kwLet => "Let"
  | .kwConst => "Const"
  | .kwNew => "New"
  | .kwFn => "Fn"
  | .kwReturn => "Return"
  | .kwIf => "If"
  | .kwElse => "Else"
  | .kwWhile => "While"
  | .kwFor => "For"
  | .kwIn => "In"
  | .kwBreak => "Break"
  | .kwContinue => "Continue"
  | .kwClass => "Class"
  | .kwExtends => "Extends"
  | .kwMixin => "Mixin"
  | .kwInterface => "Interface"
  | .kwType => "Type"
  | .kwThis => "This"
  | .kwTrue => "True"
  | .kwFalse => "False"
  | .kwNull => "Null"
  | .kwUndefined => "Undefined"
  | .kwPrivate => "Private"
  | .kwPublic => "Public"
  | .kwStatic => "Static"

/-- The spelling of an operator, as it stands in messages. Other kinds have none. -/
def symbol : TokenKind → String
  | .assignment => "="
  | .equals => "=="
  | .bang => "!"
  | .notEquals => "!="
  | .less => "<"
  | .lessEquals => "<="
  | .greater => ">"
  | .greaterEquals => ">="
  | .or => "||"
  | .and => "&&"
  | .pipe => "|"
  | .ampersand => "&"
  | .dotDot => ".."
  | .plusPlus => "++"
  | .minusMinus => "--"
  | .plusEquals => "+="
  | .minusEquals => "-="
  | .slashEquals => "/="
  | .starEquals => "*="
  | .plus => "+"
  | .dash => "-"
  | .slash => "/"
  | .star => "*"
  | .percent => "%"
  | _ => "?"

/-- The reserved words. -/
def reserved : List (String × TokenKind) :=
  [("let", .kwLet), ("const", .kwConst), ("new", .kwNew), ("return", .kwReturn), ("fn", .kwFn),
   ("if", .kwIf), ("else", .kwElse), ("while", .kwWhile), ("for", .kwFor), ("in", .kwIn),
   ("break", .kwBreak), ("continue", .kwContinue), ("class", .kwClass), ("extends", .kwExtends),
   ("mixin", .kwMixin), ("interface", .kwInterface), ("type", .kwType), ("this", .kwThis),
   ("true", .kwTrue), ("false", .kwFalse), ("null", .kwNull), ("undefined", .kwUndefined),
   ("private", .kwPrivate), ("public", .kwPublic), ("static", .kwStatic)]

/-- The kind of a reserved word. -/
def ofWord? (word : String) : Option TokenKind := reserved.lookup word

end TokenKind

/-- A token of a source. -/
structure Token where
  kind : TokenKind
  value : String
  span : Span
deriving DecidableEq

namespace Token

/-- The token that marks the end of a source. -/
def endOf (span : Span) : Token := ⟨.eof, "EOF", span⟩

/-- Whether the kind of a token is one of the given kinds. -/
def isOneOf (t : Token) (kinds : List TokenKind) : Bool := kinds.contains t.kind

/-- A token's kind and value, in the form used for inspection. -/
def describe (t : Token) : String :=
  "Token \x7b\nkind: " ++ t.kind.name ++ ",\nvalue: " ++ t.value ++ "\x7d"

end Token

end ScriptCheck
