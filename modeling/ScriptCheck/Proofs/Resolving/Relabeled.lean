import ScriptCheck.Proofs.Ids
import ScriptCheck.Proofs.Relabel.Failures
import ScriptCheck.Proofs.Resolving.Run

/-!
Resolution in two runs with different labels. The runs differ in nothing but distances; a distance that
the first notes under an id is noted by the second under its new label, and where the first fails the
second fails for the same cause.
-/

namespace ScriptCheck

open Resolver Resolve

/-- What two runs of resolution are compared by: the labels of the second, how their distances are
related, and the ids that may be noted. -/
structure Paths where
  labels : Relabeling
  tables : Table Nat Nat → Table Nat Nat → Prop
  fresh : Nat → Prop
  follows : labels.Follows fresh tables

namespace Paths

variable (c : Paths)

/-- The states of two runs. -/
structure Related (r r' : Resolver) : Prop where
  same : r' = { r with distances := r'.distances }
  distances : c.tables r.distances r'.distances

/-- Two steps that are coupled. -/
def Resolves (m m' : Resolve Unit) : Prop :=
  Couples c.labels.blame c.Related c.Related (fun u => u) (fun _ => True) m m'

variable {c} {r r' : Resolver} {m m' : Resolve Unit}

/-- A change that has nothing to do with distances keeps the states related. -/
theorem Related.change (u : Resolver → Resolver)
    (hu : ∀ r t, u { r with distances := t } = { u r with distances := t }) (h : c.Related r r') :
    c.Related (u r) (u r') := by
  have hr : (u r).distances = r.distances := by
    have heq := congrArg Resolver.distances (hu r r.distances)
    exact heq
  have hr' : u r' = { u r with distances := r'.distances } := by
    rw [h.same]
    exact hu r r'.distances
  have htable : (u r').distances = r'.distances := by rw [hr']
  refine ⟨?_, ?_⟩
  · rw [htable]
    exact hr'
  · rw [htable, hr]
    exact h.distances

theorem Resolves.between (enter leave : Resolver → Resolver)
    (henter : ∀ r t, enter { r with distances := t } = { enter r with distances := t })
    (hleave : ∀ r t, leave { r with distances := t } = { leave r with distances := t })
    (h : c.Resolves m m') : c.Resolves (between enter leave m) (between enter leave m') :=
  Couples.between h (fun _ _ hr => hr.change enter henter) fun _ _ hr => hr.change leave hleave

end Paths

variable {c : Paths}

theorem declare_couples (name : String) (place : Position) :
    c.Resolves (declare name place) (declare name (c.labels.place place)) := by
  intro r r' hr
  obtain ⟨hsame, htables⟩ := hr
  rw [hsame]
  show Agree _ _ _ _
    ((if r.scopes.containsCurrent name then throw ⟨.variableAlreadyDeclared name, place⟩
      else modify fun r => { r with scopes := r.scopes.insert name false } : Resolve Unit) r)
    ((if r.scopes.containsCurrent name then
        throw ⟨.variableAlreadyDeclared name, c.labels.place place⟩
      else modify fun r => { r with scopes := r.scopes.insert name false } : Resolve Unit)
      { r with distances := r'.distances })
  cases r.scopes.containsCurrent name with
  | true => exact ⟨blameless_of rfl place, .inr ⟨_, rfl⟩⟩
  | false => exact ⟨_, rfl, ⟨rfl, htables⟩, trivial⟩

theorem define_couples (name : String) : c.Resolves (define name) (define name) :=
  .changes fun _ _ hr => hr.change (·.define name) fun _ _ => rfl

theorem read_couples (name : String) {id : Nat} (hid : c.fresh id) (place : Position) :
    c.Resolves (read name id place) (read name (c.labels.id id) (c.labels.place place)) := by
  intro r r' hr
  obtain ⟨hsame, htables⟩ := hr
  rw [hsame, read_run, read_run]
  dsimp only
  split
  · exact ⟨blameless_of rfl place, .inr ⟨_, rfl⟩⟩
  · split
    · exact ⟨_, rfl, ⟨rfl, c.follows _ htables hid⟩, trivial⟩
    · exact ⟨blameless_of rfl place, .inr ⟨_, rfl⟩⟩
    · exact ⟨blameless_of rfl place, .inr ⟨_, rfl⟩⟩

/-- All reads have fresh ids. -/
def Paths.Suits (c : Paths) (reads : List (Nat × String)) : Prop := ∀ x ∈ reads, c.fresh x.1

namespace Paths.Suits

variable {xs ys : List (Nat × String)}

theorem left (h : c.Suits (xs ++ ys)) : c.Suits xs := fun x hx => h x (List.mem_append_left _ hx)

theorem right (h : c.Suits (xs ++ ys)) : c.Suits ys := fun x hx => h x (List.mem_append_right _ hx)

end Paths.Suits

/-! ### Expressions -/

namespace Expr

mutual

/-- Resolving an expression is coupled with resolving it under new labels. -/
theorem resolve_couples : ∀ e : Expr, c.Suits e.reads →
    c.Resolves e.resolve (e.relabel c.labels).resolve
  | .literal _ _, _ => .pure trivial
  | .keyword _ _, _ => .pure trivial
  | .symbol node name, h => read_couples name (h (node.id, name) (List.mem_singleton.2 rfl)) _
  | .array _ elements, h => resolveAll_couples elements h
  | .object _ entries, h => resolveEntries_couples entries h
  | .binary _ _ left right, h =>
    .bind (resolve_couples left h.left) fun _ _ => resolve_couples right h.right
  | .unary _ _ operand, h => resolve_couples operand h
  | .assign _ _ target value, h =>
    .bind (resolve_couples value h.right) fun _ _ => resolve_couples target h.left
  | .access _ receiver key, h =>
    .bind (resolve_couples receiver h.left) fun _ _ => resolveKey_couples key h.right
  | .call _ callee args, h =>
    .bind (resolve_couples callee h.left) fun _ _ => resolveAll_couples args h.right
  | .construct _ className classNode args, h =>
    .bind (read_couples className (h (classNode.id, className) (List.mem_cons_self ..)) _)
      fun _ _ => resolveAll_couples args fun x hx => h x (List.mem_cons_of_mem _ hx)
termination_by structural e => e

theorem resolveAll_couples : ∀ es : List Expr, c.Suits (readsAll es) →
    c.Resolves (resolveAll es) (resolveAll (relabelAll c.labels es))
  | [], _ => .pure trivial
  | e :: es, h => .bind (resolve_couples e h.left) fun _ _ => resolveAll_couples es h.right
termination_by structural es => es

theorem resolveKey_couples : ∀ k : Key Expr, c.Suits (readsKey k) →
    c.Resolves (resolveKey k) (resolveKey (relabelKey c.labels k))
  | .name _ _, _ => .pure trivial
  | .computed e, h => resolve_couples e h
termination_by structural k => k

theorem resolveEntries_couples : ∀ es : List (Entry Expr), c.Suits (readsEntries es) →
    c.Resolves (resolveEntries es) (resolveEntries (relabelEntries c.labels es))
  | [], _ => .pure trivial
  | ⟨key, value⟩ :: es, h => by
    refine .bind (resolveKey_couples key h.left.left) fun _ _ => ?_
    refine .bind (resolve_couples value h.left.right) fun _ _ => ?_
    exact resolveEntries_couples es h.right
termination_by structural es => es

end

theorem resolveOption_couples : ∀ e : Option Expr, c.Suits (readsOption e) →
    c.Resolves (resolveOption e) (resolveOption (e.map (relabel c.labels)))
  | none, _ => .pure trivial
  | some e, h => e.resolve_couples h

end Expr

/-! ### Statements -/

namespace Stmt

theorem resolveParams_couples : ∀ ps : List Param,
    c.Resolves (resolveParams ps) (resolveParams (ps.map (Param.relabel c.labels)))
  | [] => .pure trivial
  | p :: ps => by
    refine .bind (declare_couples p.name p.span.start) fun _ _ => ?_
    exact .bind (define_couples p.name) fun _ _ => resolveParams_couples ps

theorem resolveFields_couples : ∀ fs : List FieldDecl, c.Suits (readsFields fs) →
    c.Resolves (resolveFields fs) (resolveFields (fs.map (FieldDecl.relabel c.labels)))
  | [], _ => .pure trivial
  | f :: fs, h => by
    refine .bind (Expr.resolveOption_couples f.value h.left) fun _ _ => ?_
    exact resolveFields_couples fs h.right

mutual

/-- Resolving a statement is coupled with resolving it under new labels. -/
theorem resolve_couples : ∀ s : Stmt, c.Suits s.reads →
    c.Resolves s.resolve (s.relabel c.labels).resolve
  | .expr _ e, h => e.resolve_couples h
  | .block _ body, h =>
    (resolveAll_couples body h).between _ _ (fun _ _ => rfl) fun _ _ => rfl
  | .varDecl span name _ _ value, h => by
    refine .bind (declare_couples name span.start) fun _ _ => ?_
    exact .bind (Expr.resolveOption_couples value h) fun _ _ => define_couples name
  | .ifElse _ condition onTrue onFalse, h => by
    refine .bind (condition.resolve_couples h.left.left) fun _ _ => ?_
    exact .bind (resolve_couples onTrue h.left.right) fun _ _ => resolveOption_couples onFalse h.right
  | .whileLoop _ condition body, h => by
    refine .bind (condition.resolve_couples h.left) fun _ _ => ?_
    exact (resolve_couples body h.right).between _ _ (fun _ _ => rfl) fun _ _ => rfl
  | .forIn _ name iterable _ body, h => by
    refine .bind (iterable.resolve_couples h.left) fun _ _ => ?_
    exact (resolveAll_couples body h.right).between _ _ (fun _ _ => rfl) fun _ _ => rfl
  | .fnDecl f, h => by
    simp only [relabel, resolve, relabelFn_name, relabelFn_span]
    refine .bind (declare_couples f.name f.span.start) fun _ _ => ?_
    exact .bind (define_couples f.name) fun _ _ => resolveFn_couples f h
  | .ret span value, h => by
    refine .reading fun r r' hr => ?_
    rw [hr.same]
    exact .ite (.fails (blameless_of rfl span.start)) (Expr.resolveOption_couples value h)
  | .jump span isContinue, _ => by
    refine .reading fun r r' hr => ?_
    rw [hr.same]
    exact .ite (.fails (blameless_of rfl span.start)) (.pure trivial)
  | .classDecl span name _ _ fields methods, h => by
    refine .bind (declare_couples name span.start) fun _ _ => ?_
    refine .bind (define_couples name) fun _ _ => ?_
    have hbody : c.Resolves _ _ :=
      .bind (resolveFields_couples fields h.left) fun _ _ => resolveMethods_couples methods h.right
    exact hbody.between _ _ (fun _ _ => rfl) fun _ _ => rfl
  | .typeDecl _ _ _, _ => .pure trivial
termination_by structural s => s

theorem resolveAll_couples : ∀ ss : List Stmt, c.Suits (readsAll ss) →
    c.Resolves (resolveAll ss) (resolveAll (relabelAll c.labels ss))
  | [], _ => .pure trivial
  | s :: ss, h => .bind (resolve_couples s h.left) fun _ _ => resolveAll_couples ss h.right
termination_by structural ss => ss

theorem resolveOption_couples : ∀ s : Option Stmt, c.Suits (readsOption s) →
    c.Resolves (resolveOption s) (resolveOption (relabelOption c.labels s))
  | none, _ => .pure trivial
  | some s, h => resolve_couples s h
termination_by structural s => s

theorem resolveFn_couples : ∀ f : FnDecl Stmt, c.Suits (readsFn f) →
    c.Resolves (resolveFn f) (resolveFn (relabelFn c.labels f))
  | ⟨_, params, _, body, _, _⟩, h => by
    refine .reading fun r r' hr => ?_
    rw [hr.same]
    have hbody : c.Resolves _ _ :=
      .bind (resolveParams_couples params) fun _ _ => resolveAll_couples body h
    exact hbody.between _ _ (fun _ _ => rfl) fun _ _ => rfl
termination_by structural f => f

theorem resolveMethods_couples : ∀ ms : List (MethodDecl Stmt), c.Suits (readsMethods ms) →
    c.Resolves (resolveMethods ms) (resolveMethods (relabelMethods c.labels ms))
  | [], _ => .pure trivial
  | ⟨_, function⟩ :: ms, h =>
    .bind (resolveFn_couples function h.left) fun _ _ => resolveMethods_couples ms h.right
termination_by structural ms => ms

end

end Stmt

end ScriptCheck
