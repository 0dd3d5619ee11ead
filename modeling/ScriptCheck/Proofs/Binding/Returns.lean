import ScriptCheck.Proofs.Binding.Inference
import ScriptCheck.Proofs.Ty.Flattening

/-!
What statements return. A statement is bound from the inside out, and so is the union of the types it
returns; it comes out as one union of the types of all returns in it, in the order in which they are
written, leaving out those in the functions and classes in it. The result of a function that was written
without one is such a union over its body.
-/

namespace ScriptCheck

open Ty (IsNormal unionOf?)

/-! ### Returns and functions -/

namespace Stmt

mutual

/-- The returns in a statement outside the functions and classes in it: where they stand and their values. -/
def returned : Stmt → List (Span × Option Expr)
  | .ret span value => [(span, value)]
  | .block _ body => returnedAll body
  | .ifElse _ _ onTrue onFalse => returned onTrue ++ returnedOption onFalse
  | .whileLoop _ _ body => returned body
  | .forIn _ _ _ _ body => returnedAll body
  | .expr _ _ | .varDecl _ _ _ _ _ | .fnDecl _ | .jump _ _ | .classDecl _ _ _ _ _ _ | .typeDecl _ _ _ => []
termination_by structural s => s

/-- The returns in statements. -/
def returnedAll : List Stmt → List (Span × Option Expr)
  | [] => []
  | s :: ss => returned s ++ returnedAll ss
termination_by structural ss => ss

/-- The returns in an optional statement. -/
def returnedOption : Option Stmt → List (Span × Option Expr)
  | none => []
  | some s => returned s
termination_by structural s => s

end

mutual

/-- The statements in a statement, at every depth. -/
def nested : Stmt → List Stmt
  | .block _ body => nestedAll body
  | .ifElse _ _ onTrue onFalse => onTrue :: nested onTrue ++ nestedOption onFalse
  | .whileLoop _ _ body => body :: nested body
  | .forIn _ _ _ _ body => nestedAll body
  | .fnDecl f => nestedFn f
  | .classDecl _ _ _ _ _ methods => nestedMethods methods
  | .expr _ _ | .varDecl _ _ _ _ _ | .ret _ _ | .jump _ _ | .typeDecl _ _ _ => []
termination_by structural s => s

/-- Statements and those in them, at every depth. -/
def nestedAll : List Stmt → List Stmt
  | [] => []
  | s :: ss => s :: nested s ++ nestedAll ss
termination_by structural ss => ss

/-- An optional statement and those in it. -/
def nestedOption : Option Stmt → List Stmt
  | none => []
  | some s => s :: nested s
termination_by structural s => s

/-- The statements in a function. -/
def nestedFn : FnDecl Stmt → List Stmt
  | ⟨_, _, _, body, _, _⟩ => nestedAll body
termination_by structural f => f

/-- The statements in methods. -/
def nestedMethods : List (MethodDecl Stmt) → List Stmt
  | [] => []
  | ⟨_, function⟩ :: ms => nestedFn function ++ nestedMethods ms
termination_by structural ms => ms

end

/-- The functions that a statement declares itself: one, or the methods of a class. -/
def functions : Stmt → List (FnDecl Stmt)
  | .fnDecl f => [f]
  | .classDecl _ _ _ _ _ methods => methods.map (·.function)
  | _ => []

end Stmt

namespace BoundStmt

mutual

/-- The returns in a bound statement outside the functions and classes in it. -/
def returned : BoundStmt → List (Span × Option BoundExpr)
  | .ret i value => [(i.span, value)]
  | .block _ body => returnedAll body
  | .ifElse _ _ onTrue onFalse => returned onTrue ++ returnedOption onFalse
  | .whileLoop _ _ body => returned body
  | .forIn _ _ _ _ body => returnedAll body
  | .expr _ _ | .varDecl _ _ _ _ _ | .fnDecl _ _ | .jump _ _ | .classDecl _ _ _ _ | .typeDecl _ _ _ => []
termination_by structural s => s

/-- The returns in bound statements. -/
def returnedAll : List BoundStmt → List (Span × Option BoundExpr)
  | [] => []
  | s :: ss => returned s ++ returnedAll ss
termination_by structural ss => ss

/-- The returns in an optional bound statement. -/
def returnedOption : Option BoundStmt → List (Span × Option BoundExpr)
  | none => []
  | some s => returned s
termination_by structural s => s

end

mutual

/-- The statements in a bound statement, at every depth. -/
def nested : BoundStmt → List BoundStmt
  | .block _ body => nestedAll body
  | .ifElse _ _ onTrue onFalse => onTrue :: nested onTrue ++ nestedOption onFalse
  | .whileLoop _ _ body => body :: nested body
  | .forIn _ _ _ _ body => nestedAll body
  | .fnDecl _ f => nestedFn f
  | .classDecl _ _ _ methods => nestedFns methods
  | .expr _ _ | .varDecl _ _ _ _ _ | .ret _ _ | .jump _ _ | .typeDecl _ _ _ => []
termination_by structural s => s

/-- Bound statements and those in them, at every depth. -/
def nestedAll : List BoundStmt → List BoundStmt
  | [] => []
  | s :: ss => s :: nested s ++ nestedAll ss
termination_by structural ss => ss

/-- An optional bound statement and those in it. -/
def nestedOption : Option BoundStmt → List BoundStmt
  | none => []
  | some s => s :: nested s
termination_by structural s => s

/-- The statements in a bound function. -/
def nestedFn : BoundFn BoundStmt → List BoundStmt
  | ⟨_, _, body⟩ => nestedAll body
termination_by structural f => f

/-- The statements in the methods of a class. -/
def nestedFns : List (BoundFn BoundStmt) → List BoundStmt
  | [] => []
  | f :: fs => nestedFn f ++ nestedFns fs
termination_by structural fs => fs

end

/-- The functions that a bound statement declares itself. -/
def functions : BoundStmt → List (BoundFn BoundStmt)
  | .fnDecl _ f => [f]
  | .classDecl _ _ _ methods => methods
  | _ => []

theorem returnedAll_eq_flatMap (ts : List BoundStmt) : returnedAll ts = ts.flatMap returned := by
  induction ts with
  | nil => rfl
  | cons t ts ih => rw [returnedAll, ih, List.flatMap_cons]

end BoundStmt

/-! ### Written and bound -/

/-- A return as it was written and as it was bound: both stand at the same place, and so do their values. -/
def SameReturn (w : Span × Option Expr) (r : Span × Option BoundExpr) : Prop :=
  r.1 = w.1 ∧ r.2.map BoundExpr.span = w.2.map Expr.span

/-- The types that returns contribute. -/
def returnTypes (rs : List (Span × Option BoundExpr)) : List Ty := rs.map fun r => returnType r.2

/-- The returns in a function stand where they were written; without a written result it is the union of
what they return, or `void`. -/
structure FnDecl.Tallies (f : FnDecl Stmt) (g : BoundFn BoundStmt) : Prop where
  name : g.name = f.name
  returned : List.Forall₂ SameReturn (Stmt.returnedAll f.body) (BoundStmt.returnedAll g.body)
  result : f.result = none →
    g.signature.result = (unionOf? (returnTypes (BoundStmt.returnedAll g.body))).getD .void

/-- The returns in a statement stand where they were written, it returns the union of what they return, and
so do the functions that it declares. -/
structure Stmt.Tallies (s : Stmt) (t : BoundStmt) : Prop where
  span : t.span = s.span
  returned : List.Forall₂ SameReturn s.returned t.returned
  normal : ∀ u ∈ returnTypes t.returned, u.Every IsNormal
  returns : t.returns = unionOf? (returnTypes t.returned)
  functions : List.Forall₂ FnDecl.Tallies s.functions t.functions

/-! ### Groups of statements -/

theorem joinReturns_eq (types : List (Option Ty)) : joinReturns types = unionOf? (types.filterMap id) := by
  unfold joinReturns
  cases types.filterMap id <;> rfl

variable {ss : List Stmt} {ts : List BoundStmt}

theorem forall₂_returned (h : List.Forall₂ Stmt.Tallies ss ts) :
    List.Forall₂ SameReturn (Stmt.returnedAll ss) (BoundStmt.returnedAll ts) := by
  induction h with
  | nil => exact .nil
  | cons hst _ ih => exact List.rel_append hst.returned ih

theorem normal_returned (h : List.Forall₂ Stmt.Tallies ss ts) :
    ∀ u ∈ returnTypes (BoundStmt.returnedAll ts), u.Every IsNormal := by
  induction h with
  | nil => nofun
  | cons hst _ ih =>
    rw [BoundStmt.returnedAll, returnTypes, List.map_append]
    exact List.forall_mem_append.2 ⟨hst.normal, ih⟩

/-- The union of what statements return is the union of all returns in them. -/
theorem joinReturns_tallies (h : List.Forall₂ Stmt.Tallies ss ts) :
    joinReturns (ts.map (·.returns)) = unionOf? (returnTypes (BoundStmt.returnedAll ts)) := by
  have hreturns : ts.map (·.returns) = (ts.map fun t => returnTypes t.returned).map unionOf? := by
    rw [List.map_map]
    refine List.map_congr_left fun t ht => ?_
    obtain ⟨s, -, hst⟩ := exists_of_forall₂_right h ht
    exact hst.returns
  have hflat : (ts.map fun t => returnTypes t.returned).flatten =
      returnTypes (BoundStmt.returnedAll ts) := by
    rw [BoundStmt.returnedAll_eq_flatMap, returnTypes, List.map_flatMap]
    rfl
  rw [joinReturns_eq, hreturns, List.filterMap_map, Function.id_comp, Ty.unionOf?_flatten, hflat]
  refine List.forall_mem_map.2 fun t ht u hu => ?_
  obtain ⟨s, -, hst⟩ := exists_of_forall₂_right h ht
  exact (hst.normal u hu).here

/-! ### Statements -/

namespace Stmt

namespace Tallies

variable {s : Stmt} {t : BoundStmt}

/-- A statement without a return of its own. -/
theorem silent (hspan : t.span = s.span) (hs : s.returned = []) (ht : t.returned = [])
    (hreturns : t.returns = none) (hfunctions : List.Forall₂ FnDecl.Tallies s.functions t.functions) :
    s.Tallies t := by
  refine ⟨hspan, ?_, ?_, ?_, hfunctions⟩
  · rw [hs, ht]
    exact .nil
  · rw [ht]
    nofun
  · rw [ht, hreturns]
    rfl

/-- A statement that returns what the statements in it return. -/
theorem holding (hspan : t.span = s.span) (h : List.Forall₂ Tallies ss ts)
    (hs : s.returned = returnedAll ss) (ht : t.returned = BoundStmt.returnedAll ts)
    (hreturns : t.returns = joinReturns (ts.map (·.returns)))
    (hfunctions : List.Forall₂ FnDecl.Tallies s.functions t.functions) : s.Tallies t := by
  refine ⟨hspan, ?_, ?_, ?_, hfunctions⟩
  · rw [hs, ht]
    exact forall₂_returned h
  · rw [ht]
    exact normal_returned h
  · rw [hreturns, ht]
    exact joinReturns_tallies h

theorem returns_eq_none (h : s.Tallies t) : t.returns = none ↔ s.returned = [] := by
  have hlength := h.returned.length_eq
  rw [h.returns, Ty.unionOf?_eq_none, returnTypes, List.map_eq_nil_iff, ← List.length_eq_zero_iff,
    ← List.length_eq_zero_iff, hlength]

end Tallies

mutual

/-- A statement that is bound tallies with what was written, and so do all statements in it. -/
theorem bind_tallies : ∀ (s : Stmt) {b b' : Binder} {t : BoundStmt}, s.bind b = .ok t b' →
    (∀ u ∈ t.types, u.Every IsNormal) → s.Tallies t ∧ List.Forall₂ Tallies s.nested t.nested
  | .expr _ _, _, _, _, h, _ => by
    cases binds_of_ok h with
    | expr _ => exact ⟨.silent rfl rfl rfl rfl .nil, .nil⟩
  | .block _ body, _, _, _, h, hnormal => by
    cases binds_of_ok h with
    | block inside =>
      obtain ⟨hbody, hnested⟩ := bindAll_tallies body inside (List.forall_mem_append.1 hnormal).2
      exact ⟨.holding rfl hbody rfl rfl rfl .nil, hnested⟩
  | .varDecl _ _ _ _ _, _, _, _, h, _ => by
    cases binds_of_ok h with
    | varDecl _ _ => exact ⟨.silent rfl rfl rfl rfl .nil, .nil⟩
  | .ifElse _ _ onTrue onFalse, _, _, _, h, hnormal => by
    cases binds_of_ok h with
    | @ifElse _ _ _ _ _ _ _ _ _ t o _ first second =>
      obtain ⟨-, hnormal⟩ := List.forall_mem_append.1 hnormal
      obtain ⟨-, hnormal⟩ := List.forall_mem_append.1 hnormal
      obtain ⟨hnormalTrue, hnormalFalse⟩ := List.forall_mem_append.1 hnormal
      obtain ⟨htrue, hnested⟩ := bind_tallies onTrue first hnormalTrue
      obtain ⟨hfalse, hnested'⟩ := bindOption_tallies onFalse second hnormalFalse
      have hbranches := List.rel_append (.cons htrue hnested) hnested'
      refine ⟨.holding rfl (.cons htrue hfalse) ?_ ?_ rfl .nil, hbranches⟩
      · cases onFalse <;> simp [returned, returnedOption, returnedAll]
      · cases o <;> simp [BoundStmt.returned, BoundStmt.returnedOption, BoundStmt.returnedAll]
  | .whileLoop _ _ body, _, _, _, h, hnormal => by
    cases binds_of_ok h with
    | whileLoop _ inside =>
      obtain ⟨-, hnormal⟩ := List.forall_mem_append.1 hnormal
      obtain ⟨hbody, hnested⟩ := bind_tallies body inside (List.forall_mem_append.1 hnormal).2
      exact ⟨⟨rfl, hbody.returned, hbody.normal, hbody.returns, .nil⟩, .cons hbody hnested⟩
  | .forIn _ _ _ _ body, _, _, _, h, hnormal => by
    cases binds_of_ok h with
    | forIn _ inside =>
      obtain ⟨-, hnormal⟩ := List.forall_mem_append.1 hnormal
      obtain ⟨-, hnormal⟩ := List.forall_mem_cons.1 hnormal
      obtain ⟨hbody, hnested⟩ := bindAll_tallies body inside (List.forall_mem_append.1 hnormal).2
      exact ⟨.holding rfl hbody rfl rfl rfl .nil, hnested⟩
  | .fnDecl f, _, _, _, h, hnormal => by
    cases binds_of_ok h with
    | fnDecl _ inside =>
      obtain ⟨hfn, hnested⟩ := bindFn_tallies f inside (List.forall_mem_append.1 hnormal).2
      exact ⟨.silent rfl rfl rfl rfl (.cons hfn .nil), hnested⟩
  | .ret _ _, _, _, _, h, hnormal => by
    cases binds_of_ok h with
    | @ret _ _ _ _ bound result =>
      have hnormal : (returnType bound).Every IsNormal := hnormal _ List.mem_cons_self
      refine ⟨⟨rfl, .cons ⟨rfl, Expr.span_of_bindOption result⟩ .nil, List.forall_mem_singleton.2 hnormal,
        ?_, .nil⟩, .nil⟩
      exact congrArg some (Ty.unionOf_singleton hnormal.here).symm
  | .jump _ _, _, _, _, h, _ => by
    cases h
    exact ⟨.silent rfl rfl rfl rfl .nil, .nil⟩
  | .classDecl _ _ _ _ _ methods, _, _, _, h, hnormal => by
    cases binds_of_ok h with
    | classDecl _ _ _ _ _ _ inside =>
      obtain ⟨-, hnormal⟩ := List.forall_mem_append.1 hnormal
      obtain ⟨-, hnormal⟩ := List.forall_mem_cons.1 hnormal
      obtain ⟨hmethods, hnested⟩ := bindMethods_tallies methods inside (List.forall_mem_append.1 hnormal).2
      exact ⟨.silent rfl rfl rfl rfl hmethods, hnested⟩
  | .typeDecl _ _ _, _, _, _, h, _ => by
    cases binds_of_ok h with
    | typeDecl _ _ => exact ⟨.silent rfl rfl rfl rfl .nil, .nil⟩
termination_by structural s => s

theorem bindAll_tallies : ∀ (ss : List Stmt) {b b' : Binder} {ts : List BoundStmt},
    bindAll ss b = .ok ts b' → (∀ u ∈ BoundStmt.typesAll ts, u.Every IsNormal) →
      List.Forall₂ Tallies ss ts ∧ List.Forall₂ Tallies (nestedAll ss) (BoundStmt.nestedAll ts)
  | [], _, _, _, h, _ => by
    cases h
    exact ⟨.nil, .nil⟩
  | s :: ss, _, _, _, h, hnormal => by
    obtain ⟨t, ts, b₁, rfl, ht, hts⟩ := bindAll_cons h
    obtain ⟨hnormalFirst, hnormalRest⟩ := List.forall_mem_append.1 hnormal
    obtain ⟨hfirst, hnested⟩ := bind_tallies s ht hnormalFirst
    obtain ⟨hrest, hnested'⟩ := bindAll_tallies ss hts hnormalRest
    exact ⟨.cons hfirst hrest, List.rel_append (.cons hfirst hnested) hnested'⟩
termination_by structural ss => ss

theorem bindOption_tallies : ∀ (s : Option Stmt) {b b' : Binder} {t : Option BoundStmt},
    bindOption s b = .ok t b' → (∀ u ∈ BoundStmt.typesOption t, u.Every IsNormal) →
      List.Forall₂ Tallies s.toList t.toList ∧
        List.Forall₂ Tallies (nestedOption s) (BoundStmt.nestedOption t)
  | none, _, _, _, h, _ => by
    cases h
    exact ⟨.nil, .nil⟩
  | some s, _, _, _, h, hnormal => by
    obtain ⟨t, rfl, ht⟩ := bindOption_some h
    obtain ⟨hs, hnested⟩ := bind_tallies s ht hnormal
    exact ⟨.cons hs .nil, .cons hs hnested⟩
termination_by structural s => s

theorem bindFn_tallies : ∀ (f : FnDecl Stmt) {signature : Signature Ty} {b b' : Binder}
    {g : BoundFn BoundStmt}, bindFn signature f b = .ok g b' →
      (∀ u ∈ BoundStmt.typesFn g, u.Every IsNormal) →
      f.Tallies g ∧ List.Forall₂ Tallies (nestedFn f) (BoundStmt.nestedFn g)
  | ⟨_, _, result, body, _, _⟩, _, _, _, _, h, hnormal => by
    obtain ⟨ts, b₁, hrun, rfl, rfl⟩ := bindFn_ok h
    obtain ⟨hbody, hnested⟩ := bindAll_tallies body hrun (List.forall_mem_cons.1 hnormal).2
    refine ⟨⟨rfl, forall₂_returned hbody, ?_⟩, hnested⟩
    rintro ⟨⟩
    exact congrArg (·.getD .void) (joinReturns_tallies hbody)
termination_by structural f => f

theorem bindMethods_tallies : ∀ (ms : List (MethodDecl Stmt)) {b b' : Binder}
    {gs : List (BoundFn BoundStmt)}, bindMethods ms b = .ok gs b' →
      (∀ u ∈ BoundStmt.typesFns gs, u.Every IsNormal) →
      List.Forall₂ FnDecl.Tallies (ms.map (·.function)) gs ∧
        List.Forall₂ Tallies (nestedMethods ms) (BoundStmt.nestedFns gs)
  | [], _, _, _, h, _ => by
    cases h
    exact ⟨.nil, .nil⟩
  | ⟨_, function⟩ :: ms, _, _, _, h, hnormal => by
    obtain ⟨signature, g, gs, b₁, rfl, -, hg, hgs⟩ := bindMethods_cons h
    obtain ⟨hnormalFirst, hnormalRest⟩ := List.forall_mem_append.1 hnormal
    obtain ⟨hfirst, hnested⟩ := bindFn_tallies function hg hnormalFirst
    obtain ⟨hrest, hnested'⟩ := bindMethods_tallies ms hgs hnormalRest
    exact ⟨.cons hfirst hrest, List.rel_append hnested hnested'⟩
termination_by structural ms => ms

end

end Stmt

end ScriptCheck
