import ScriptCheck.Diagnostic
import ScriptCheck.Scope
import ScriptCheck.Stmt

/-!
Resolution: for every read of a name, how many scopes out it is declared. A scope maps a name to
whether its declaration is finished, so that a read inside its own initial value is told apart from
a read of an unknown name. Blocks, functions, class bodies and `for` loops open a scope; a function
has one scope for its parameters and its body.
-/

namespace ScriptCheck

/-- What is known while a program is resolved. -/
structure Resolver where
  /-- For every name in scope, whether its declaration is finished. -/
  scopes : ScopeStack Bool
  /-- For every read, the distance of its declaration. -/
  distances : Table Nat Nat
  functionDepth : Nat
  loopDepth : Nat
  classDepth : Nat

/-- A step of resolution. A step that fails keeps what was known when it failed. -/
abbrev Resolve := EStateM Diagnostic Resolver

namespace Resolver

/-- Nothing is known. -/
def empty : Resolver := ⟨.empty, .empty, 0, 0, 0⟩

/-- Makes a name known to every program. -/
def defineGlobal (r : Resolver) (name : String) : Resolver :=
  { r with scopes := r.scopes.insertGlobal name true }

/-- Opens a scope. -/
def push (r : Resolver) : Resolver := { r with scopes := r.scopes.push }

/-- Closes the innermost scope. -/
def pop (r : Resolver) : Resolver := { r with scopes := r.scopes.pop }

/-- Finishes the declaration of a name in the innermost scope. -/
def define (r : Resolver) (name : String) : Resolver :=
  { r with scopes := r.scopes.insert name true }

/-- Goes one loop in. -/
def enterLoop (r : Resolver) : Resolver := { r with loopDepth := r.loopDepth + 1 }

/-- Goes one loop out. -/
def leaveLoop (r : Resolver) : Resolver := { r with loopDepth := r.loopDepth - 1 }

/-- Goes into a function, where no loop is open. -/
def enterFunction (r : Resolver) : Resolver :=
  { r.push with loopDepth := 0, functionDepth := r.functionDepth + 1 }

/-- Leaves a function, around which the given number of loops is open. -/
def leaveFunction (loops : Nat) (r : Resolver) : Resolver :=
  { r.pop with loopDepth := loops, functionDepth := r.functionDepth - 1 }

/-- Goes into a class body, where `this` is declared. -/
def enterClass (r : Resolver) : Resolver :=
  { r.push with classDepth := r.classDepth + 1 }.define "this"

/-- Leaves a class body. -/
def leaveClass (r : Resolver) : Resolver := { r.pop with classDepth := r.classDepth - 1 }

end Resolver

namespace Resolve

/-- Starts the declaration of a name in the innermost scope. -/
def declare (name : String) (position : Position) : Resolve Unit := do
  if (← get).scopes.containsCurrent name then
    throw ⟨.variableAlreadyDeclared name, position⟩
  modify fun r => { r with scopes := r.scopes.insert name false }

/-- Finishes the declaration of a name in the innermost scope. -/
def define (name : String) : Resolve Unit := modify (·.define name)

/-- Resolves the read of a name. -/
def read (name : String) (id : Nat) (position : Position) : Resolve Unit := do
  let r ← get
  if name = "this" && r.classDepth = 0 then throw ⟨.thisOutsideClass, position⟩
  match r.scopes.lookup name with
  | some (distance, true) => set { r with distances := r.distances.insert id distance }
  | some (_, false) => throw ⟨.readInOwnInitializer name, position⟩
  | none => throw ⟨.variableNotDeclared name, position⟩

end Resolve

open Resolve

/-! ### Expressions -/

namespace Expr

mutual

/-- Resolves the reads of an expression. The value of an assignment comes before its target. -/
def resolve : Expr → Resolve Unit
  | .literal _ _ => pure ()
  | .keyword _ _ => pure ()
  | .symbol node name => read name node.id node.span.start
  | .array _ elements => resolveAll elements
  | .object _ entries => resolveEntries entries
  | .binary _ _ left right => do
    resolve left
    resolve right
  | .unary _ _ operand => resolve operand
  | .assign _ _ target value => do
    resolve value
    resolve target
  | .access _ receiver key => do
    resolve receiver
    resolveKey key
  | .call _ callee args => do
    resolve callee
    resolveAll args
  | .construct _ className classNode args => do
    read className classNode.id classNode.span.start
    resolveAll args
termination_by structural e => e

/-- Resolves the reads of expressions from left to right. -/
def resolveAll : List Expr → Resolve Unit
  | [] => pure ()
  | e :: es => do
    resolve e
    resolveAll es
termination_by structural es => es

/-- Resolves the reads of a key. -/
def resolveKey : Key Expr → Resolve Unit
  | .name _ _ => pure ()
  | .computed e => resolve e
termination_by structural k => k

/-- Resolves the reads of entries, each key before its value. -/
def resolveEntries : List (Entry Expr) → Resolve Unit
  | [] => pure ()
  | ⟨key, value⟩ :: rest => do
    resolveKey key
    resolve value
    resolveEntries rest
termination_by structural es => es

end

/-- Resolves the reads of an optional expression. -/
def resolveOption : Option Expr → Resolve Unit
  | some e => e.resolve
  | none => pure ()

end Expr

/-! ### Statements -/

namespace Stmt

/-- Declares parameters from left to right. -/
def resolveParams : List Param → Resolve Unit
  | [] => pure ()
  | p :: ps => do
    declare p.name p.span.start
    define p.name
    resolveParams ps

/-- Resolves the initial values of fields from left to right. -/
def resolveFields : List FieldDecl → Resolve Unit
  | [] => pure ()
  | f :: fs => do
    Expr.resolveOption f.value
    resolveFields fs

mutual

/-- Resolves the reads and declarations of a statement. -/
def resolve : Stmt → Resolve Unit
  | .expr _ e => e.resolve
  | .block _ body => between Resolver.push Resolver.pop (resolveAll body)
  | .varDecl span name _ _ value => do
    declare name span.start
    Expr.resolveOption value
    define name
  | .ifElse _ condition onTrue onFalse => do
    condition.resolve
    resolve onTrue
    resolveOption onFalse
  | .whileLoop _ condition body => do
    condition.resolve
    between Resolver.enterLoop Resolver.leaveLoop (resolve body)
  | .forIn _ name iterable _ body => do
    iterable.resolve
    between (fun r => r.push.enterLoop.define name) (fun r => r.leaveLoop.pop) (resolveAll body)
  | .fnDecl f => do
    declare f.name f.span.start
    define f.name
    resolveFn f
  | .ret span value => do
    if (← get).functionDepth = 0 then throw ⟨.returnOutsideFunction, span.start⟩
    Expr.resolveOption value
  | .jump span isContinue => do
    if (← get).loopDepth = 0 then
      throw ⟨.loopControlOutsideLoop (if isContinue then "continue" else "break"), span.start⟩
  | .classDecl span name _ _ fields methods => do
    declare name span.start
    define name
    between Resolver.enterClass Resolver.leaveClass do
      resolveFields fields
      resolveMethods methods
  | .typeDecl _ _ _ => pure ()
termination_by structural s => s

/-- Resolves statements in order. -/
def resolveAll : List Stmt → Resolve Unit
  | [] => pure ()
  | s :: ss => do
    resolve s
    resolveAll ss
termination_by structural ss => ss

/-- Resolves an optional statement. -/
def resolveOption : Option Stmt → Resolve Unit
  | some s => resolve s
  | none => pure ()
termination_by structural s => s

/-- Resolves the parameters and the body of a function in a scope of their own. -/
def resolveFn : FnDecl Stmt → Resolve Unit
  | ⟨_, params, _, body, _, _⟩ => do
    let loops := (← get).loopDepth
    between Resolver.enterFunction (Resolver.leaveFunction loops) do
      resolveParams params
      resolveAll body
termination_by structural f => f

/-- Resolves methods in order. -/
def resolveMethods : List (MethodDecl Stmt) → Resolve Unit
  | [] => pure ()
  | ⟨_, function⟩ :: ms => do
    resolveFn function
    resolveMethods ms
termination_by structural ms => ms

end

end Stmt

namespace Resolver

/-- The resolver at the start of a program, outside of functions, loops and classes. -/
def start (r : Resolver) : Resolver := { r with functionDepth := 0, loopDepth := 0, classDepth := 0 }

/-- The resolver behind a program: only the global scope is open and no distance is kept. -/
def close (r : Resolver) : Resolver := { r with scopes := r.scopes.truncate, distances := .empty }

/-- Resolves a program in the global scope, which is left whether or not it fails. -/
def resolve (r : Resolver) (block : Block) : Except Diagnostic (Table Nat Nat) × Resolver :=
  match (Stmt.resolveAll block.body).run r.start with
  | .ok _ r' => (.ok r'.distances, r'.close)
  | .error e r' => (.error e, r'.close)

/-- The resolver with the given global scope and no other. -/
def restore (r : Resolver) (globals : Table String Bool) : Resolver :=
  { r with scopes := .ofGlobals globals }

end Resolver

end ScriptCheck
