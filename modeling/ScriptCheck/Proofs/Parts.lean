import ScriptCheck.Proofs.Ids
import ScriptCheck.Ty.Basic

/-!
The parts of syntax: the expressions in an expression, and the outermost expressions and the type
references of a statement. A reference is sound for a condition on types if the condition holds of the
types that it writes out by itself, its literals and its unions and intersections of nothing.
-/

namespace ScriptCheck

/-! ### Expressions -/

namespace Expr

mutual

/-- An expression and all expressions in it. -/
def subterms : Expr → List Expr
  | .literal node value => [.literal node value]
  | .keyword node word => [.keyword node word]
  | .symbol node name => [.symbol node name]
  | .array node elements => .array node elements :: subtermsAll elements
  | .object node entries => .object node entries :: subtermsEntries entries
  | .binary node operator left right =>
    .binary node operator left right :: (subterms left ++ subterms right)
  | .unary node operator operand => .unary node operator operand :: subterms operand
  | .assign node operator target value =>
    .assign node operator target value :: (subterms target ++ subterms value)
  | .access node receiver key => .access node receiver key :: (subterms receiver ++ subtermsKey key)
  | .call node callee args => .call node callee args :: (subterms callee ++ subtermsAll args)
  | .construct node className classNode args =>
    .construct node className classNode args :: subtermsAll args
termination_by structural e => e

/-- All expressions in a list. -/
def subtermsAll : List Expr → List Expr
  | [] => []
  | e :: es => subterms e ++ subtermsAll es
termination_by structural es => es

/-- All expressions in a key. -/
def subtermsKey : Key Expr → List Expr
  | .name _ _ => []
  | .computed e => subterms e
termination_by structural k => k

/-- All expressions in entries. -/
def subtermsEntries : List (Entry Expr) → List Expr
  | [] => []
  | ⟨key, value⟩ :: es => subtermsKey key ++ subterms value ++ subtermsEntries es
termination_by structural es => es

end

/-- All expressions in an entry. -/
def subtermsEntry (e : Entry Expr) : List Expr := subtermsKey e.key ++ subterms e.value

theorem subtermsAll_eq_flatMap (es : List Expr) : subtermsAll es = es.flatMap subterms := by
  induction es with
  | nil => rfl
  | cons e es ih => rw [subtermsAll, ih, List.flatMap_cons]

theorem subtermsEntries_eq_flatMap (es : List (Entry Expr)) :
    subtermsEntries es = es.flatMap subtermsEntry := by
  induction es with
  | nil => rfl
  | cons e es ih =>
    obtain ⟨key, value⟩ := e
    rw [subtermsEntries, ih, List.flatMap_cons]
    rfl

/-- The ids of an expression are those of its parts and, behind them, a greater one of its own. -/
def Rises (e : Expr) : Prop := ∃ parts, e.ids = parts ++ [e.id] ∧ ∀ i ∈ parts, i < e.id

/-- A literal is a number, a text or a truth value. -/
def IsOrdinary : Expr → Prop
  | .literal _ value => value ≠ .float .nan
  | _ => True

/-- The ids of an expression lie below the given one and rise towards every expression in it, and its
literals are ordinary. -/
structure Sound (n : Nat) (e : Expr) : Prop where
  below : ∀ i ∈ e.ids, i < n
  parts : ∀ x ∈ e.subterms, x.Rises ∧ x.IsOrdinary

end Expr

/-! ### References -/

/-- The condition holds of the literals and of the empty unions and intersections of a reference. -/
inductive TypeRef.Sound (P : Ty → Prop) : TypeRef → Prop
  | named {name : String} {args : List TypeRef} {span : Span} (parts : ∀ r ∈ args, Sound P r) :
      Sound P (.named name args span)
  | array {element : TypeRef} {span : Span} (part : Sound P element) : Sound P (.array element span)
  | union {members : List TypeRef} {span : Span} (empty : members = [] → P (.union []))
      (parts : ∀ r ∈ members, Sound P r) : Sound P (.union members span)
  | intersection {members : List TypeRef} {span : Span} (empty : members = [] → P (.intersection []))
      (parts : ∀ r ∈ members, Sound P r) : Sound P (.intersection members span)
  | interface {props : List (PropertyRef TypeRef)} {index : List (IndexRef TypeRef)} {span : Span}
      (propTypes : ∀ p ∈ props, Sound P p.type) (indexTypes : ∀ x ∈ index, Sound P x.type) :
      Sound P (.interface props index span)
  | function {params : List (ParamRef TypeRef)} {result : TypeRef} {span : Span}
      (paramTypes : ∀ p ∈ params, Sound P p.type) (resultType : Sound P result) :
      Sound P (.function params result span)
  | literal {value : Literal} {span : Span} (here : P (.literal value)) : Sound P (.literal value span)

/-! ### Statements -/

namespace Stmt

mutual

/-- The outermost expressions of a statement. -/
def roots : Stmt → List Expr
  | .expr _ e => [e]
  | .block _ body => rootsAll body
  | .varDecl _ _ _ _ value => value.toList
  | .ifElse _ condition onTrue onFalse => condition :: (roots onTrue ++ rootsOption onFalse)
  | .whileLoop _ condition body => condition :: roots body
  | .forIn _ _ iterable _ body => iterable :: rootsAll body
  | .fnDecl function => rootsFn function
  | .ret _ value => value.toList
  | .jump _ _ => []
  | .classDecl _ _ _ _ fields methods => fields.flatMap (·.value.toList) ++ rootsMethods methods
  | .typeDecl _ _ _ => []
termination_by structural s => s

/-- The outermost expressions of statements. -/
def rootsAll : List Stmt → List Expr
  | [] => []
  | s :: ss => roots s ++ rootsAll ss
termination_by structural ss => ss

/-- The outermost expressions of an optional statement. -/
def rootsOption : Option Stmt → List Expr
  | some s => roots s
  | none => []
termination_by structural s => s

/-- The outermost expressions of a function. -/
def rootsFn : FnDecl Stmt → List Expr
  | ⟨_, _, _, body, _, _⟩ => rootsAll body
termination_by structural d => d

/-- The outermost expressions of methods. -/
def rootsMethods : List (MethodDecl Stmt) → List Expr
  | [] => []
  | ⟨_, function⟩ :: ms => rootsFn function ++ rootsMethods ms
termination_by structural ms => ms

end

/-- All expressions of statements. -/
def exprs (ss : List Stmt) : List Expr := (rootsAll ss).flatMap Expr.subterms

mutual

/-- The type references of a statement. -/
def refs : Stmt → List TypeRef
  | .varDecl _ _ _ type _ => type.toList
  | .block _ body => refsAll body
  | .ifElse _ _ onTrue onFalse => refs onTrue ++ refsOption onFalse
  | .whileLoop _ _ body => refs body
  | .forIn _ _ _ _ body => refsAll body
  | .fnDecl function => refsFn function
  | .classDecl _ _ _ _ fields methods => fields.map (·.type) ++ refsMethods methods
  | .typeDecl _ _ ref => [ref]
  | .expr _ _ | .ret _ _ | .jump _ _ => []
termination_by structural s => s

/-- The type references of statements. -/
def refsAll : List Stmt → List TypeRef
  | [] => []
  | s :: ss => refs s ++ refsAll ss
termination_by structural ss => ss

/-- The type references of an optional statement. -/
def refsOption : Option Stmt → List TypeRef
  | some s => refs s
  | none => []
termination_by structural s => s

/-- The type references of a function. -/
def refsFn : FnDecl Stmt → List TypeRef
  | ⟨_, params, result, body, _, _⟩ => params.map (·.type) ++ result.toList ++ refsAll body
termination_by structural d => d

/-- The type references of methods. -/
def refsMethods : List (MethodDecl Stmt) → List TypeRef
  | [] => []
  | ⟨_, function⟩ :: ms => refsFn function ++ refsMethods ms
termination_by structural ms => ms

end

theorem rootsAll_eq_flatMap (ss : List Stmt) : rootsAll ss = ss.flatMap roots := by
  induction ss with
  | nil => rfl
  | cons s ss ih => rw [rootsAll, ih, List.flatMap_cons]

theorem refsAll_eq_flatMap (ss : List Stmt) : refsAll ss = ss.flatMap refs := by
  induction ss with
  | nil => rfl
  | cons s ss ih => rw [refsAll, ih, List.flatMap_cons]

theorem rootsMethods_eq_flatMap (ms : List (MethodDecl Stmt)) :
    rootsMethods ms = ms.flatMap fun m => rootsFn m.function := by
  induction ms with
  | nil => rfl
  | cons m ms ih => rw [rootsMethods, ih, List.flatMap_cons]

theorem refsMethods_eq_flatMap (ms : List (MethodDecl Stmt)) :
    refsMethods ms = ms.flatMap fun m => refsFn m.function := by
  induction ms with
  | nil => rfl
  | cons m ms ih => rw [refsMethods, ih, List.flatMap_cons]

end Stmt

/-! ### What is read -/

/-- Outermost expressions and references that were read. -/
structure WellRead (P : Ty → Prop) (roots : List Expr) (refs : List TypeRef) : Prop where
  exprs : ∀ e ∈ roots, ∀ x ∈ e.subterms, x.Rises ∧ x.IsOrdinary
  types : ∀ r ∈ refs, r.Sound P

namespace WellRead

variable {P : Ty → Prop} {es es' : List Expr} {rs rs' : List TypeRef}

theorem nil : WellRead P [] [] := ⟨nofun, nofun⟩

theorem append (h : WellRead P es rs) (h' : WellRead P es' rs') :
    WellRead P (es ++ es') (rs ++ rs') :=
  ⟨List.forall_mem_append.2 ⟨h.exprs, h'.exprs⟩, List.forall_mem_append.2 ⟨h.types, h'.types⟩⟩

theorem cons {e : Expr} {n : Nat} (he : e.Sound n) (h : WellRead P es rs) :
    WellRead P (e :: es) rs := ⟨List.forall_mem_cons.2 ⟨he.parts, h.exprs⟩, h.types⟩

theorem ordinary (h : WellRead P es rs) {e : Expr} (he : e ∈ es) : ∀ x ∈ e.subterms, x.IsOrdinary :=
  fun x hx => (h.exprs e he x hx).2

theorem uncons {e : Expr} (h : WellRead P (e :: es) rs) :
    (∀ x ∈ e.subterms, x.IsOrdinary) ∧ WellRead P es rs :=
  ⟨h.ordinary List.mem_cons_self, (List.forall_mem_cons.1 h.exprs).2, h.types⟩

/-- What was read together was read apart. -/
theorem split (h : WellRead P (es ++ es') (rs ++ rs')) : WellRead P es rs ∧ WellRead P es' rs' := by
  obtain ⟨hes, hes'⟩ := List.forall_mem_append.1 h.exprs
  obtain ⟨hrs, hrs'⟩ := List.forall_mem_append.1 h.types
  exact ⟨⟨hes, hrs⟩, ⟨hes', hrs'⟩⟩

theorem flatMap {α : Type} {roots : α → List Expr} {refs : α → List TypeRef} {as : List α}
    (h : ∀ a ∈ as, WellRead P (roots a) (refs a)) :
    WellRead P (as.flatMap roots) (as.flatMap refs) := by
  induction as with
  | nil => exact nil
  | cons a as ih =>
    rw [List.forall_mem_cons] at h
    exact h.1.append (ih h.2)

/-- The parts of a function were read. -/
theorem fn {f : FnDecl Stmt} (h : WellRead P (Stmt.rootsFn f) (Stmt.refsFn f)) :
    (∀ p ∈ f.params, p.type.Sound P) ∧ (∀ r ∈ f.result, r.Sound P) ∧
      WellRead P (Stmt.rootsAll f.body) (Stmt.refsAll f.body) := by
  obtain ⟨name, params, result, body, bodySpan, span⟩ := f
  obtain ⟨hsignature, hbody⟩ := List.forall_mem_append.1 h.types
  obtain ⟨hparams, hresult⟩ := List.forall_mem_append.1 hsignature
  refine ⟨fun p hp => hparams _ (List.mem_map_of_mem hp), fun r hr => ?_, h.exprs, hbody⟩
  exact hresult r (Option.mem_toList.2 hr)

theorem methods {ms : List (MethodDecl Stmt)}
    (h : WellRead P (Stmt.rootsMethods ms) (Stmt.refsMethods ms)) :
    ∀ m ∈ ms, WellRead P (Stmt.rootsFn m.function) (Stmt.refsFn m.function) := by
  rw [Stmt.rootsMethods_eq_flatMap, Stmt.refsMethods_eq_flatMap] at h
  exact fun m hm => ⟨fun e he => h.exprs e (List.mem_flatMap.2 ⟨m, hm, he⟩),
    fun r hr => h.types r (List.mem_flatMap.2 ⟨m, hm, hr⟩)⟩

end WellRead

end ScriptCheck
