import ScriptCheck.Source.Position
import ScriptCheck.Text.Quoted

/-!
Diagnostics: why a program is rejected, and where. Each cause has a name, belongs to the stage that
finds it, and has a message and, except for one cause, a tip.
-/

namespace ScriptCheck

/-- The reasons for which a program is rejected. -/
inductive Cause where
  | unrecognisedToken (token : String)
  | unexpectedToken (token : String)
  | unexpectedTokenDetailed (token message : String)
  | numberParseError (token : String)
  | variableAlreadyDeclared (name : String)
  | variableNotDeclared (name : String)
  | readInOwnInitializer (name : String)
  | returnOutsideFunction
  | loopControlOutsideLoop (keyword : String)
  | thisOutsideClass
  | symbolNotFound (symbol : String)
  | unknownType (type : String)
  | invalidIndexSignature (key : String)
  | invalidComputedKey (received : String)
  | invalidSuperclass (symbol : String)
  | invalidMixin (symbol : String)
  | typeMismatch (expected received : String)
  | argumentMismatch (expected received : String)
  | fieldMismatch (expected received : String)
  | returnMismatch (expected received : String)
  | operatorMismatch (operator operands : String)
  | incomparableOperands (left right : String)
  | unexpectedArguments (expected received : Nat)
  | missingArguments (expected received : Nat)
  | notCallable (received : String)
  | notConstructable (received : String)
  | invalidAssignmentTarget
  | readonlyProperty (property : String)
  | constantAssignment (name : String)
  | privateMemberAccess (member owner : String)
deriving DecidableEq

/-- The stage that finds a cause. -/
inductive Stage where
  | syntactic
  | resolution
  | binding
  | typing
deriving DecidableEq

/-- How a stage is called in messages. -/
def Stage.label : Stage → String
  | .syntactic => "SyntaxError"
  | .resolution => "ResolutionError"
  | .binding => "BindingError"
  | .typing => "TypeError"

namespace Cause

/-- The stage that finds the cause. -/
def stage : Cause → Stage
  | .unrecognisedToken _ | .unexpectedToken _ | .unexpectedTokenDetailed _ _
  | .numberParseError _ => .syntactic
  | .variableAlreadyDeclared _ | .variableNotDeclared _ | .readInOwnInitializer _
  | .returnOutsideFunction | .loopControlOutsideLoop _ | .thisOutsideClass => .resolution
  | .symbolNotFound _ | .unknownType _ | .invalidIndexSignature _ | .invalidComputedKey _
  | .invalidSuperclass _ | .invalidMixin _ => .binding
  | .typeMismatch _ _ | .argumentMismatch _ _ | .fieldMismatch _ _ | .returnMismatch _ _
  | .operatorMismatch _ _ | .incomparableOperands _ _ | .unexpectedArguments _ _
  | .missingArguments _ _ | .notCallable _ | .notConstructable _ | .invalidAssignmentTarget
  | .readonlyProperty _ | .constantAssignment _ | .privateMemberAccess _ _ => .typing

/-- The name under which the cause is reported. -/
def name : Cause → String
  | .unrecognisedToken _ => "UnrecognisedToken"
  | .unexpectedToken _ => "UnexpectedToken"
  | .unexpectedTokenDetailed _ _ => "UnexpectedTokenDetailed"
  | .numberParseError _ => "NumberParseError"
  | .variableAlreadyDeclared _ => "VariableAlreadyDeclared"
  | .variableNotDeclared _ => "VariableNotDeclared"
  | .readInOwnInitializer _ => "ReadInOwnInitializer"
  | .returnOutsideFunction => "ReturnOutsideFunction"
  | .loopControlOutsideLoop _ => "LoopControlOutsideLoop"
  | .thisOutsideClass => "ThisOutsideClass"
  | .symbolNotFound _ => "SymbolNotFound"
  | .unknownType _ => "UnknownType"
  | .invalidIndexSignature _ => "InvalidIndexSignature"
  | .invalidComputedKey _ => "InvalidComputedKey"
  | .invalidSuperclass _ => "InvalidSuperclass"
  | .invalidMixin _ => "InvalidMixin"
  | .typeMismatch _ _ => "TypeMatchError"
  | .argumentMismatch _ _ => "ArgumentTypeMatchError"
  | .fieldMismatch _ _ => "FieldTypeMatchError"
  | .returnMismatch _ _ => "ReturnTypeMatchError"
  | .operatorMismatch _ _ => "OperatorTypeMatchError"
  | .incomparableOperands _ _ => "IncomparableOperands"
  | .unexpectedArguments _ _ => "UnexpectedArguments"
  | .missingArguments _ _ => "MissingArguments"
  | .notCallable _ => "NotCallable"
  | .notConstructable _ => "NotConstructable"
  | .invalidAssignmentTarget => "InvalidAssignmentTarget"
  | .readonlyProperty _ => "ReadonlyProperty"
  | .constantAssignment _ => "ConstantAssignment"
  | .privateMemberAccess _ _ => "PrivateMemberAccess"

/-- What went wrong, in a short sentence. Tokens are quoted. -/
def description : Cause → String
  | .unrecognisedToken token => "unrecognised token: " ++ Text.quote token
  | .unexpectedToken token => "unexpected token: " ++ Text.quote token
  | .unexpectedTokenDetailed token message =>
    s!"unexpected token ({message}): " ++ Text.quote token
  | .numberParseError token => "error parsing number: " ++ Text.quote token
  | .variableAlreadyDeclared v => s!"variable `{v}` already declared in this scope"
  | .variableNotDeclared v => s!"variable `{v}` not declared"
  | .readInOwnInitializer v => s!"cannot read variable `{v}` in its own initializer"
  | .returnOutsideFunction => "return outside of a function"
  | .loopControlOutsideLoop keyword => s!"`{keyword}` outside of a loop"
  | .thisOutsideClass => "`this` outside of a class"
  | .symbolNotFound symbol => s!"symbol `{symbol}` not found"
  | .unknownType type => s!"unknown type `{type}` found"
  | .invalidIndexSignature key =>
    s!"index signature key must be `string` or `int`, found `{key}`"
  | .invalidComputedKey received =>
    s!"computed key must be `string | int`, received `{received}`"
  | .invalidSuperclass symbol => s!"`{symbol}` is not a class"
  | .invalidMixin symbol => s!"`{symbol}` cannot be used as a mixin"
  | .typeMismatch expected received =>
    s!"types do not match: expected `{expected}`, received `{received}`"
  | .argumentMismatch expected received =>
    s!"argument types do not match: expected `{expected}`, received `{received}`"
  | .fieldMismatch expected received =>
    s!"field types do not match: expected `{expected}`, received `{received}`"
  | .returnMismatch expected received =>
    s!"return types do not match: expected `{expected}`, received `{received}`"
  | .operatorMismatch operator operands =>
    s!"operator `{operator}` cannot be applied to `{operands}`"
  | .incomparableOperands left right => s!"`{left}` and `{right}` cannot be compared"
  | .unexpectedArguments expected received =>
    s!"unexpected arguments: expected {expected}, received {received}"
  | .missingArguments expected received =>
    s!"missing arguments: expected {expected}, received {received}"
  | .notCallable received => s!"type `{received}` is not callable"
  | .notConstructable received => s!"type `{received}` is not constructable"
  | .invalidAssignmentTarget => "invalid assignment target"
  | .readonlyProperty property => s!"property `{property}` is read-only"
  | .constantAssignment v => s!"cannot assign to constant `{v}`"
  | .privateMemberAccess member owner => s!"member `{member}` is private to `{owner}`"

/-- What to look at. An unrecognised token has no tip. -/
def tip? : Cause → Option String
  | .unrecognisedToken _ => none
  | .unexpectedToken token =>
    some s!"Unexpected token: `{token}`, did you miss a semicolon?"
  | .unexpectedTokenDetailed token message => some s!"Unexpected token: `{token}`, {message}"
  | .numberParseError token =>
    some s!"Invalid number: `{token}`, is it above the integer limit?"
  | .variableAlreadyDeclared v => some s!"Variable `{v}` already declared in this scope"
  | .variableNotDeclared v => some s!"Variable `{v}` not declared"
  | .readInOwnInitializer v => some s!"Cannot read variable `{v}` in its own initializer"
  | .returnOutsideFunction => some "`return` can only be used inside a function"
  | .loopControlOutsideLoop keyword => some s!"`{keyword}` can only be used inside a loop"
  | .thisOutsideClass => some "`this` can only be used inside a class"
  | .symbolNotFound symbol =>
    some s!"Symbol `{symbol}` has no binding, the resolver and binder scopes disagree"
  | .unknownType type => some s!"Unknown type `{type}` found"
  | .invalidIndexSignature key =>
    some s!"Index signature keys must be `string` or `int`, found `{key}`"
  | .invalidComputedKey received =>
    some s!"Computed keys must be `string | int`, received `{received}`"
  | .invalidSuperclass symbol => some s!"`{symbol}` is not a class and cannot be extended"
  | .invalidMixin symbol =>
    some s!"`{symbol}` is neither a class nor an interface and cannot be mixed in"
  | .typeMismatch expected received => some s!"Expected type `{expected}`, received `{received}`"
  | .argumentMismatch expected received =>
    some s!"Expected argument type `{expected}`, received `{received}`"
  | .fieldMismatch expected received =>
    some s!"Expected field type `{expected}`, received `{received}`"
  | .returnMismatch expected received =>
    some s!"Expected return type `{expected}`, received `{received}`"
  | .operatorMismatch operator operands =>
    some s!"Operator `{operator}` cannot be applied to `{operands}`"
  | .incomparableOperands left right =>
    some s!"Values of type `{left}` and `{right}` can never be compared"
  | .unexpectedArguments expected received =>
    some s!"Expected {expected} arguments, received {received}"
  | .missingArguments expected received =>
    some s!"Expected {expected} arguments, received {received}"
  | .notCallable received => some s!"Type `{received}` is not callable"
  | .notConstructable received => some s!"Type `{received}` cannot be constructed with `new`"
  | .invalidAssignmentTarget => some "Only variables and properties can be assigned to"
  | .readonlyProperty property => some s!"Property `{property}` is read-only"
  | .constantAssignment v => some s!"Cannot assign to constant `{v}`"
  | .privateMemberAccess member owner => some s!"Member `{member}` is private to class `{owner}`"

end Cause

/-- A cause and the place where it was found. -/
structure Diagnostic where
  cause : Cause
  position : Position
deriving DecidableEq

namespace Diagnostic

/-- The stage that found the cause. -/
def stage (d : Diagnostic) : Stage := d.cause.stage

/-- The message of a diagnostic: its stage and what went wrong. -/
def message (d : Diagnostic) : String := d.stage.label ++ ": " ++ d.cause.description

end Diagnostic

/-- Why a stage gives no result: it rejects the program, or it would run for ever or address a scope
beyond all bounds, and there is no result to give. -/
inductive Failure where
  | rejected (diagnostic : Diagnostic)
  | stuck
deriving DecidableEq

/-- A rejection. -/
def Failure.of (cause : Cause) (position : Position) : Failure := .rejected ⟨cause, position⟩

end ScriptCheck
