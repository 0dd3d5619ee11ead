import Mathlib.Data.List.Forall2
import ScriptCheck.Proofs.Ids

/-!
Lexical scoping as a judgement over a program. Every place of a program has its surroundings: the
names that the scopes around it hold so far, and whether it stands in a function, in a loop of that
function and in a class. What scoping has to say about a program, it says at four kinds of sites:
where a name is declared, where one is read, and at returns and jumps.
-/

namespace ScriptCheck

/-- The names that a scope holds, newest first, each with whether its declaration is finished. -/
abbrev HeldNames := List (String × Bool)

/-- What surrounds a place in a program. -/
structure Surroundings where
  /-- The scopes around it, innermost first. -/
  scopes : List HeldNames
  inFunction : Bool
  /-- Whether it stands in a loop of the innermost function. -/
  inLoop : Bool
  inClass : Bool

namespace Surroundings

/-- A program stands in the global scope. -/
def ofGlobals (globals : HeldNames) : Surroundings := ⟨[globals], false, false, false⟩

/-- In one more scope. -/
def opened (env : Surroundings) : Surroundings := { env with scopes := [] :: env.scopes }

/-- With a name in the innermost scope, declared to its end or not. -/
def holding (env : Surroundings) (name : String) (finished : Bool) : Surroundings :=
  { env with scopes := env.scopes.modifyHead ((name, finished) :: ·) }

/-- Behind declarations in the innermost scope. -/
def behind (env : Surroundings) (names : List String) : Surroundings :=
  names.foldl (·.holding · true) env

/-- In a loop. -/
def looped (env : Surroundings) : Surroundings := { env with inLoop := true }

/-- In the scope of a function, where no loop is open yet. -/
def ofFunction (env : Surroundings) : Surroundings :=
  { env.opened with inFunction := true, inLoop := false }

/-- In the scope of a class body, which holds `this`. -/
def ofClass (env : Surroundings) : Surroundings :=
  { env.opened.holding "this" true with inClass := true }

/-- How many scopes stand between a place and the nearest scope that holds a name. -/
def distance (env : Surroundings) (name : String) : Nat :=
  env.scopes.findIdx fun held => (held.lookup name).isSome

/-- The nearest scope that holds a name. -/
def nearest (env : Surroundings) (name : String) : HeldNames :=
  env.scopes.getD (env.distance name) []

end Surroundings

/-- A place at which scoping has something to say, with its surroundings. -/
inductive Site where
  | declaration (name : String) (env : Surroundings)
  | read (id : Nat) (name : String) (env : Surroundings)
  | ret (env : Surroundings)
  | jump (env : Surroundings)

namespace Site

/-- What scoping demands: no name is declared twice in a scope; the nearest scope that holds a name
holds it with its declaration finished where it is read, and `this` is read in a class only; returns
stand in functions, jumps in loops of their function. -/
def Legal : Site → Prop
  | .declaration name env => (env.scopes.headD []).lookup name = none
  | .read _ name env =>
    (env.nearest name).lookup name = some true ∧ (name = "this" → env.inClass)
  | .ret env => env.inFunction
  | .jump env => env.inLoop

instance : DecidablePred Legal
  | .declaration name env => inferInstanceAs (Decidable ((env.scopes.headD []).lookup name = none))
  | .read _ name env => inferInstanceAs
      (Decidable ((env.nearest name).lookup name = some true ∧ (name = "this" → env.inClass)))
  | .ret env => inferInstanceAs (Decidable (env.inFunction = true))
  | .jump env => inferInstanceAs (Decidable (env.inLoop = true))

/-- The id of a read, with its distance. -/
def entry? : Site → Option (Nat × Nat)
  | .read id name env => some (id, env.distance name)
  | _ => none

end Site

/-- Reads in the same surroundings. -/
def Surroundings.reads (env : Surroundings) (xs : List (Nat × String)) : List Site :=
  xs.map fun x => .read x.1 x.2 env

namespace Stmt

mutual

/-- The names that a statement leaves in the scope it stands in. The bodies of `if` and `while` stand
in that scope as well. -/
def declared : Stmt → List String
  | .varDecl _ name _ _ _ => [name]
  | .fnDecl f => [f.name]
  | .classDecl _ name _ _ _ _ => [name]
  | .ifElse _ _ onTrue onFalse => declared onTrue ++ declaredOption onFalse
  | .whileLoop _ _ body => declared body
  | .expr _ _ | .block _ _ | .forIn _ _ _ _ _ | .ret _ _ | .jump _ _ | .typeDecl _ _ _ => []
termination_by structural s => s

/-- The names that an optional statement leaves in its scope. -/
def declaredOption : Option Stmt → List String
  | none => []
  | some s => declared s
termination_by structural s => s

end

/-- The sites of parameters. -/
def siteParams : List Param → Surroundings → List Site
  | [], _ => []
  | p :: ps, env => .declaration p.name env :: siteParams ps (env.holding p.name true)

mutual

/-- The sites of a statement, in the given surroundings. -/
def sites : Stmt → Surroundings → List Site
  | .expr _ e, env => env.reads e.reads
  | .block _ body, env => sitesAll body env.opened
  | .varDecl _ name _ _ value, env =>
    .declaration name env :: (env.holding name false).reads (Expr.readsOption value)
  | .ifElse _ condition onTrue onFalse, env =>
    env.reads condition.reads ++ sites onTrue env ++
      sitesOption onFalse (env.behind onTrue.declared)
  | .whileLoop _ condition body, env => env.reads condition.reads ++ sites body env.looped
  | .forIn _ name iterable _ body, env =>
    env.reads iterable.reads ++ sitesAll body (env.opened.looped.holding name true)
  | .fnDecl f, env => .declaration f.name env :: sitesFn f (env.holding f.name true)
  | .ret _ value, env => .ret env :: env.reads (Expr.readsOption value)
  | .jump _ _, env => [.jump env]
  | .classDecl _ name _ _ fields methods, env =>
    .declaration name env ::
      ((env.holding name true).ofClass.reads (readsFields fields) ++
        sitesMethods methods (env.holding name true).ofClass)
  | .typeDecl _ _ _, _ => []
termination_by structural s => s

/-- The sites of statements that follow each other in one scope. -/
def sitesAll : List Stmt → Surroundings → List Site
  | [], _ => []
  | s :: ss, env => sites s env ++ sitesAll ss (env.behind s.declared)
termination_by structural ss => ss

/-- The sites of an optional statement. -/
def sitesOption : Option Stmt → Surroundings → List Site
  | none, _ => []
  | some s, env => sites s env
termination_by structural s => s

/-- The sites of a function: its parameters and its body stand in one scope. -/
def sitesFn : FnDecl Stmt → Surroundings → List Site
  | ⟨_, params, _, body, _, _⟩, env =>
    siteParams params env.ofFunction ++
      sitesAll body (env.ofFunction.behind (params.map Param.name))
termination_by structural f => f

/-- The sites of methods. -/
def sitesMethods : List (MethodDecl Stmt) → Surroundings → List Site
  | [], _ => []
  | ⟨_, function⟩ :: ms, env => sitesFn function env ++ sitesMethods ms env
termination_by structural ms => ms

end

/-! ### Reads -/

/-- The ids of the reads among sites. -/
def siteIds (sites : List Site) : List Nat := (sites.filterMap Site.entry?).map Prod.fst

theorem siteIds_append (xs ys : List Site) : siteIds (xs ++ ys) = siteIds xs ++ siteIds ys := by
  simp only [siteIds, List.filterMap_append, List.map_append]

theorem siteIds_reads (env : Surroundings) (xs : List (Nat × String)) :
    siteIds (env.reads xs) = xs.map Prod.fst := by
  simp [siteIds, Surroundings.reads, List.filterMap_map, Function.comp_def, Site.entry?]

theorem siteIds_declaration (name : String) (env : Surroundings) (xs : List Site) :
    siteIds (.declaration name env :: xs) = siteIds xs := rfl

theorem siteIds_siteParams (ps : List Param) (env : Surroundings) :
    siteIds (siteParams ps env) = [] := by
  induction ps generalizing env with
  | nil => rfl
  | cons p ps ih => exact ih _

mutual

/-- The sites of a statement have the reads of the statement among them. -/
theorem siteIds_sites : ∀ (s : Stmt) (env : Surroundings),
    siteIds (s.sites env) = s.reads.map Prod.fst
  | .expr _ e, env => siteIds_reads env e.reads
  | .block _ body, env => siteIds_sitesAll body env.opened
  | .varDecl _ name _ _ value, env => siteIds_reads _ _
  | .ifElse _ condition onTrue onFalse, env => by
    rw [sites, siteIds_append, siteIds_append, siteIds_reads, siteIds_sites onTrue,
      siteIds_sitesOption onFalse, reads, List.map_append, List.map_append]
  | .whileLoop _ condition body, env => by
    rw [sites, siteIds_append, siteIds_reads, siteIds_sites body, reads, List.map_append]
  | .forIn _ name iterable _ body, env => by
    rw [sites, siteIds_append, siteIds_reads, siteIds_sitesAll body, reads, List.map_append]
  | .fnDecl f, env => siteIds_sitesFn f _
  | .ret _ value, env => siteIds_reads env _
  | .jump _ _, _ => rfl
  | .classDecl _ name _ _ fields methods, env => by
    rw [sites, siteIds_declaration, siteIds_append, siteIds_reads, siteIds_sitesMethods methods,
      reads, List.map_append]
  | .typeDecl _ _ _, _ => rfl
termination_by structural s => s

theorem siteIds_sitesAll : ∀ (ss : List Stmt) (env : Surroundings),
    siteIds (sitesAll ss env) = (readsAll ss).map Prod.fst
  | [], _ => rfl
  | s :: ss, env => by
    rw [sitesAll, siteIds_append, siteIds_sites s, siteIds_sitesAll ss, readsAll, List.map_append]
termination_by structural ss => ss

theorem siteIds_sitesOption : ∀ (s : Option Stmt) (env : Surroundings),
    siteIds (sitesOption s env) = (readsOption s).map Prod.fst
  | none, _ => rfl
  | some s, env => siteIds_sites s env
termination_by structural s => s

theorem siteIds_sitesFn : ∀ (f : FnDecl Stmt) (env : Surroundings),
    siteIds (sitesFn f env) = (readsFn f).map Prod.fst
  | ⟨_, params, _, body, _, _⟩, env => by
    rw [sitesFn, siteIds_append, siteIds_siteParams, siteIds_sitesAll body, readsFn, List.nil_append]
termination_by structural f => f

theorem siteIds_sitesMethods : ∀ (ms : List (MethodDecl Stmt)) (env : Surroundings),
    siteIds (sitesMethods ms env) = (readsMethods ms).map Prod.fst
  | [], _ => rfl
  | ⟨_, function⟩ :: ms, env => by
    rw [sitesMethods, siteIds_append, siteIds_sitesFn function, siteIds_sitesMethods ms,
      readsMethods, List.map_append]
termination_by structural ms => ms

end

end Stmt

end ScriptCheck
