import ScriptCheck.Binding
import ScriptCheck.Contract
import ScriptCheck.Intrinsic
import ScriptCheck.Resolution
import ScriptCheck.Stmt.Parser
import ScriptCheck.Token.Lexer

/-!
Sessions: programs checked one after the other. What a program declares stays known to the programs
after it; a program that fails leaves nothing behind but the ids it has drawn. The diagnostic of a
failed program is returned, and a session that records also keeps it.
-/

namespace ScriptCheck

/-- What a session does with a diagnostic besides returning it. -/
inductive ErrorMode where
  | report
  | record
deriving DecidableEq

/-- What checking a program finds out. -/
structure CheckedProgram where
  statements : List BoundStmt
  /-- For every read of a name, the distance of its declaration. -/
  distances : Table Nat Nat
  /-- The type of every expression. -/
  boundTypes : Table Nat Ty

/-- What is kept from one program to the next. -/
structure Session where
  resolver : Resolver
  binder : Binder
  typeNames : List String
  nextId : Nat
  mode : ErrorMode
  errors : List Diagnostic

namespace Session

/-- A session that knows the intrinsic names. -/
def new (mode : ErrorMode) : Session :=
  { resolver := Intrinsic.all.foldl (fun r i => r.defineGlobal i.1) .empty
    binder := Intrinsic.all.foldl (fun b i => b.defineConst i.1 i.2) .empty
    typeNames := intrinsicTypeNames
    nextId := 0
    mode
    errors := [] }

/-- The stream of the tokens of a program, with the type names and the ids of the session. -/
def stream (s : Session) (tokens : List Token) (file : String) : TokenStream :=
  { TokenStream.ofTokens tokens file with typeNames := s.typeNames, nextId := s.nextId }

/-- Takes a parsed program through the stages behind the parser. The type names that the parser
knows stay if all stages succeed. -/
def checkBlock (s : Session) (block : Block) (typeNames : List String) :
    Except Failure CheckedProgram × Session :=
  match s.resolver.resolve block with
  | (.error d, resolver) => (.error (.rejected d), { s with resolver })
  | (.ok distances, resolver) =>
    match s.binder.bind block distances with
    | (.error e, binder) => (.error e, { s with resolver, binder })
    | (.ok statements, binder) =>
      let s := { s with resolver, binder }
      match checkContracts statements with
      | .error d => (.error (.rejected d), s)
      | .ok _ =>
        (.ok ⟨statements, distances, binder.boundTypes⟩,
          { s with typeNames, binder := { binder with boundTypes := .empty } })

/-- Takes a program through all stages. -/
def run (s : Session) (source file : String) : Except Failure CheckedProgram × Session :=
  match tokenize source file with
  | .error d => (.error (.rejected d), s)
  | .ok tokens =>
    match Block.parse.run (s.stream tokens file) with
    | .error e stream => (.error e, { s with nextId := stream.nextId })
    | .ok block stream => { s with nextId := stream.nextId }.checkBlock block stream.typeNames

/-- The session after a failure: the global names are those from before. -/
def recover (before after : Session) (e : Failure) : Session :=
  let restored :=
    { after with
      resolver := after.resolver.restore before.resolver.scopes.globals
      binder := after.binder.restore before.binder.globals }
  match e, after.mode with
  | .rejected d, .record => { restored with errors := restored.errors ++ [d] }
  | _, _ => restored

/-- Checks a program. -/
def check (s : Session) (source file : String) : Except Failure CheckedProgram × Session :=
  match s.run source file with
  | (.ok program, after) => (.ok program, after)
  | (.error e, after) => (.error e, s.recover after e)

/-- The recorded diagnostics, and the session without them. -/
def takeErrors (s : Session) : List Diagnostic × Session := (s.errors, { s with errors := [] })

end Session

/-- Checks one program in a session of its own. -/
def checkSource (source file : String) : Except Failure CheckedProgram :=
  ((Session.new .record).check source file).1

end ScriptCheck
