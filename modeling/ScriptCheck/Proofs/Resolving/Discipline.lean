import ScriptCheck.Proofs.Resolving.Lexical
import ScriptCheck.Proofs.Resolving.Run
import ScriptCheck.Proofs.Scopes
import ScriptCheck.Proofs.Triple

/-!
Resolution keeps its scopes. Whether a statement is resolved or rejected, the scopes that it opened are
closed, the scopes around it are what they were, and it stands in as many functions, loops and classes as
before; if it is resolved, the innermost scope holds the names that it declares, and no others besides.
-/

namespace ScriptCheck

namespace Resolver

/-- The scopes are kept, and so is the number of functions, loops and classes around. -/
structure Kept (before after : Resolver) : Prop where
  scopes : before.scopes.Kept after.scopes
  functionDepth : after.functionDepth = before.functionDepth
  loopDepth : after.loopDepth = before.loopDepth
  classDepth : after.classDepth = before.classDepth

/-- All is kept, and the innermost scope has gained the given names. -/
structure Grown (before : Resolver) (names : List String) (after : Resolver) : Prop
    extends Kept before after where
  grown : before.scopes.Grown names after.scopes

variable {before between after r t : Resolver} {names more : List String}

namespace Kept

theorem refl (r : Resolver) : Kept r r := ⟨.refl _, rfl, rfl, rfl⟩

theorem trans (h : Kept before between) (h' : Kept between after) : Kept before after :=
  ⟨h.scopes.trans h'.scopes, h'.functionDepth.trans h.functionDepth,
    h'.loopDepth.trans h.loopDepth, h'.classDepth.trans h.classDepth⟩

theorem written (h : Kept before after) (name : String) (ready : Bool) :
    Kept before { after with scopes := after.scopes.insert name ready } :=
  { h with scopes := h.scopes.trans (.insert _ name ready) }

/-- Only distances are new once the scope that was opened is closed. -/
theorem inScope (h : Kept r.push t) : t.pop = { r with distances := t.distances } := by
  unfold pop
  rw [h.scopes.pop_eq, h.functionDepth, h.loopDepth, h.classDepth]
  rfl

theorem inLoop (h : Kept r.enterLoop t) : Kept r t.leaveLoop :=
  { h with loopDepth := congrArg (· - 1) h.loopDepth }

theorem inFor {name : String} (h : Kept (r.push.enterLoop.define name) t) :
    t.leaveLoop.pop = { r with distances := t.distances } := by
  have hpush : Kept r.push t.leaveLoop :=
    inLoop ((written (.refl _) name true).trans h)
  exact hpush.inScope

theorem inFunction (h : Kept r.enterFunction t) :
    t.leaveFunction r.loopDepth = { r with distances := t.distances } := by
  have hpush : r.scopes.push.Kept t.scopes := h.scopes
  unfold leaveFunction pop
  rw [hpush.pop_eq, h.functionDepth, h.classDepth]
  rfl

theorem inClass (h : Kept r.enterClass t) : t.leaveClass = { r with distances := t.distances } := by
  have hpush : r.scopes.push.Kept t.scopes := (ScopeStack.Kept.insert _ _ _).trans h.scopes
  unfold leaveClass pop
  rw [hpush.pop_eq, h.functionDepth, h.loopDepth, h.classDepth]
  rfl

end Kept

namespace Grown

theorem refl (r : Resolver) : Grown r [] r := ⟨.refl r, .refl _⟩

theorem trans (h : Grown before names between) (h' : Grown between more after) :
    Grown before (names ++ more) after :=
  ⟨h.toKept.trans h'.toKept, h.grown.trans h'.grown⟩

/-- A name is written to the innermost scope. -/
theorem written (h : Grown before names after) (name : String) (ready : Bool) :
    Grown before (names ++ [name]) { after with scopes := after.scopes.insert name ready } :=
  ⟨h.toKept.written name ready, h.grown.trans (.insert _ name ready)⟩

/-- A name that was gained is written again. -/
theorem rewritten (h : Grown before names after) {name : String} (hname : name ∈ names)
    (ready : Bool) : Grown before names { after with scopes := after.scopes.insert name ready } :=
  ⟨h.toKept.written name ready, h.grown.rewrite hname ready⟩

theorem inLoop (h : Grown r.enterLoop names t) : Grown r names t.leaveLoop :=
  ⟨h.toKept.inLoop, h.grown⟩

end Grown

/-- A condition on resolvers that does not look at distances. -/
def Stable (P : Resolver → Prop) : Prop := ∀ r d, P r → P { r with distances := d }

theorem stable_kept (before : Resolver) : Stable (Kept before) := fun _ _ h => { h with }

theorem stable_grown (before : Resolver) (names : List String) : Stable (Grown before names) :=
  fun _ _ h => { h with }

/-- A step that changes nothing but distances. -/
def OnlyFinds {α : Type} (m : Resolve α) : Prop := ∀ P, Stable P → Triple P m (fun _ => P) P

namespace OnlyFinds

variable {α β : Type} {m : Resolve α} {k : α → Resolve β}

theorem pure (a : α) : OnlyFinds (Pure.pure a) := fun _ _ => .pure fun _ h => h

theorem bind (hm : OnlyFinds m) (hk : ∀ a, OnlyFinds (k a)) : OnlyFinds (m >>= k) :=
  fun P hP => .bind (hm P hP) fun a => hk a P hP

/-- What is resolved in a scope of its own leaves nothing but distances behind. -/
theorem inScope {enter leave : Resolver → Resolver}
    (hm : ∀ r, Triple (enter r).Kept m (fun _ => (enter r).Kept) (enter r).Kept)
    (hleave : ∀ r t, (enter r).Kept t → leave t = { r with distances := t.distances }) :
    OnlyFinds (ScriptCheck.between enter leave m) := by
  refine fun P hP => .between fun r hr => ?_
  refine (hm r).mono (fun s hs => hs ▸ .refl _) (fun _ t ht => ?_) (fun t ht => ?_)
  · rw [hleave r t ht]
    exact hP r _ hr
  · rw [hleave r t ht]
    exact hP r _ hr

end OnlyFinds

/-- A step that grows the innermost scope, from whatever resolver, keeps the scopes. -/
theorem kept_of_grown {α : Type} {m : Resolve α}
    (h : ∀ r : Resolver, Triple (r.Grown []) m (fun _ => r.Grown names) r.Kept)
    (before : Resolver) :
    Triple before.Kept m (fun _ => before.Kept) before.Kept :=
  .intro (fun r _ _ hr hm => hr.trans ((h r).of_ok (.refl r) hm).toKept)
    (fun r _ _ hr hm => hr.trans ((h r).of_error (.refl r) hm))

end Resolver

open Resolver Resolve

/-! ### Expressions -/

namespace Resolve

theorem read_onlyFinds (name : String) (id : Nat) (place : Position) :
    OnlyFinds (read name id place) := by
  refine fun P hP r hr => ?_
  rw [read_run]
  by_cases hthis : (name = "this" && r.classDepth = 0) = true
  · rw [if_pos hthis]
    exact hr
  · rw [if_neg hthis]
    cases r.scopes.lookup name with
    | none => exact hr
    | some found =>
      obtain ⟨d, ready⟩ := found
      cases ready with
      | true => exact hP r _ hr
      | false => exact hr

/-- The name whose declaration is started is written to the innermost scope. -/
theorem declare_grown (before : Resolver) (names : List String) (name : String) (place : Position) :
    Triple (before.Grown names) (declare name place) (fun _ => before.Grown (names ++ [name]))
      before.Kept := by
  refine .reading fun r hr => ?_
  by_cases hknown : r.scopes.containsCurrent name = true
  · rw [if_pos hknown]
    exact .fails fun s hs => hs ▸ hr.toKept
  · rw [if_neg hknown]
    exact .modified fun s hs => hs ▸ hr.written name false

/-- Finishing the declaration of a name that is there adds no name. -/
theorem define_grown {before : Resolver} {names : List String} {name : String}
    (hname : name ∈ names) :
    Triple (before.Grown names) (define name) (fun _ => before.Grown names) before.Kept :=
  .modified fun _ hr => hr.rewritten hname true

end Resolve

namespace Expr

mutual

/-- Resolving an expression changes nothing but distances, whether or not it fails. -/
theorem resolve_onlyFinds : ∀ e : Expr, OnlyFinds e.resolve
  | .literal _ _ => .pure ()
  | .keyword _ _ => .pure ()
  | .symbol node name => read_onlyFinds name node.id node.span.start
  | .array _ elements => resolveAll_onlyFinds elements
  | .object _ entries => resolveEntries_onlyFinds entries
  | .binary _ _ left right => .bind (resolve_onlyFinds left) fun _ => resolve_onlyFinds right
  | .unary _ _ operand => resolve_onlyFinds operand
  | .assign _ _ target value => .bind (resolve_onlyFinds value) fun _ => resolve_onlyFinds target
  | .access _ receiver key => .bind (resolve_onlyFinds receiver) fun _ => resolveKey_onlyFinds key
  | .call _ callee args => .bind (resolve_onlyFinds callee) fun _ => resolveAll_onlyFinds args
  | .construct _ name classNode args =>
    .bind (read_onlyFinds name classNode.id classNode.span.start) fun _ => resolveAll_onlyFinds args
termination_by structural e => e

theorem resolveAll_onlyFinds : ∀ es : List Expr, OnlyFinds (resolveAll es)
  | [] => .pure ()
  | e :: es => .bind (resolve_onlyFinds e) fun _ => resolveAll_onlyFinds es
termination_by structural es => es

theorem resolveKey_onlyFinds : ∀ k : Key Expr, OnlyFinds (resolveKey k)
  | .name _ _ => .pure ()
  | .computed e => resolve_onlyFinds e
termination_by structural k => k

theorem resolveEntries_onlyFinds : ∀ es : List (Entry Expr), OnlyFinds (resolveEntries es)
  | [] => .pure ()
  | ⟨key, value⟩ :: es =>
    .bind (resolveKey_onlyFinds key) fun _ =>
      .bind (resolve_onlyFinds value) fun _ => resolveEntries_onlyFinds es
termination_by structural es => es

end

theorem resolveOption_onlyFinds : ∀ e : Option Expr, OnlyFinds (resolveOption e)
  | none => .pure ()
  | some e => e.resolve_onlyFinds

end Expr

/-! ### Statements -/

namespace Stmt

variable {before : Resolver} {names : List String}

theorem resolveParams_kept (ps : List Param) (before : Resolver) :
    Triple before.Kept (resolveParams ps) (fun _ => before.Kept) before.Kept := by
  induction ps with
  | nil => exact .pure fun _ h => h
  | cons p ps ih =>
    have hdeclare := kept_of_grown (fun r => declare_grown r [] p.name p.span.start) before
    have hdefine : Triple before.Kept (define p.name) (fun _ => before.Kept) before.Kept :=
      .modified fun _ h => h.written p.name true
    exact .bind hdeclare fun _ => .bind hdefine fun _ => ih

theorem resolveFields_onlyFinds : ∀ fs : List FieldDecl, OnlyFinds (resolveFields fs)
  | [] => .pure ()
  | f :: fs =>
    .bind (Expr.resolveOption_onlyFinds f.value) fun _ => resolveFields_onlyFinds fs

/-- A step that changes only distances, where names have been gained. -/
theorem grown_of_onlyFinds {m : Resolve Unit} (h : OnlyFinds m) :
    Triple (before.Grown names) m (fun _ => before.Grown names) before.Kept :=
  (h _ (stable_grown before names)).mono (fun _ hs => hs) (fun _ _ hs => hs) fun _ hs => hs.toKept

/-- A statement that declares nothing. -/
theorem resolve_grown_nil {m : Resolve Unit} (h : OnlyFinds m) :
    Triple (before.Grown names) m (fun _ => before.Grown (names ++ [])) before.Kept := by
  rw [List.append_nil]
  exact grown_of_onlyFinds h

mutual

/-- A statement grows the innermost scope by the names that it declares, or fails and keeps the
scopes. -/
theorem resolve_grown : ∀ (s : Stmt) (before : Resolver) (names : List String),
    Triple (before.Grown names) s.resolve (fun _ => before.Grown (names ++ s.declared)) before.Kept
  | .expr _ e, _, _ => resolve_grown_nil e.resolve_onlyFinds
  | .block _ body, _, _ =>
    resolve_grown_nil (.inScope (fun r => resolveAll_kept body r.push) fun _ _ => Kept.inScope)
  | .varDecl span name _ _ value, before, names => by
    refine .bind (declare_grown before names name span.start) fun _ => ?_
    refine .bind (grown_of_onlyFinds (Expr.resolveOption_onlyFinds value)) fun _ => ?_
    exact define_grown (List.mem_append_right _ (List.mem_singleton.2 rfl))
  | .ifElse _ condition onTrue onFalse, before, names => by
    refine .bind (grown_of_onlyFinds condition.resolve_onlyFinds) fun _ => ?_
    rw [declared, ← List.append_assoc]
    exact .bind (resolve_grown onTrue before names) fun _ => resolveOption_grown onFalse before _
  | .whileLoop _ condition body, before, names => by
    refine .bind (grown_of_onlyFinds condition.resolve_onlyFinds) fun _ => ?_
    refine .between fun r hr => ?_
    exact (resolve_grown body r.enterLoop []).mono (fun s hs => hs ▸ .refl _)
      (fun _ t ht => hr.trans ht.inLoop) (fun t ht => hr.toKept.trans ht.inLoop)
  | .forIn _ name iterable _ body, before, names => by
    refine .bind (grown_of_onlyFinds iterable.resolve_onlyFinds) fun _ => ?_
    exact resolve_grown_nil (.inScope
      (fun r => resolveAll_kept body (r.push.enterLoop.define name)) fun _ _ => Kept.inFor)
  | .fnDecl f, before, names => by
    have hname : f.name ∈ names ++ [f.name] := List.mem_append_right _ (List.mem_singleton.2 rfl)
    refine .bind (declare_grown before names f.name f.span.start) fun _ => ?_
    refine .bind (define_grown hname) fun _ => ?_
    exact grown_of_onlyFinds (resolveFn_onlyFinds f)
  | .ret span value, before, names => by
    refine .reading fun r hr => ?_
    by_cases hdepth : r.functionDepth = 0
    · rw [if_pos hdepth]
      exact .fails fun s hs => hs ▸ hr.toKept
    · rw [if_neg hdepth]
      exact (resolve_grown_nil (Expr.resolveOption_onlyFinds value)).mono (fun s hs => hs ▸ hr)
        (fun _ _ hs => hs) fun _ hs => hs
  | .jump span _, before, names => by
    refine .reading fun r hr => ?_
    split
    · exact .fails fun s hs => hs ▸ hr.toKept
    · refine .pure fun s hs => ?_
      rw [declared, List.append_nil]
      exact hs ▸ hr
  | .classDecl span name _ _ fields methods, before, names => by
    have hname : name ∈ names ++ [name] := List.mem_append_right _ (List.mem_singleton.2 rfl)
    refine .bind (declare_grown before names name span.start) fun _ => ?_
    refine .bind (define_grown hname) fun _ => ?_
    have hinner : OnlyFinds (do resolveFields fields; resolveMethods methods) :=
      .bind (resolveFields_onlyFinds fields) fun _ => resolveMethods_onlyFinds methods
    exact grown_of_onlyFinds
      (.inScope (fun r => hinner _ (stable_kept r.enterClass)) fun _ _ => Kept.inClass)
  | .typeDecl _ _ _, _, _ => resolve_grown_nil (.pure ())
termination_by structural s => s

theorem resolveAll_kept : ∀ (ss : List Stmt) (before : Resolver),
    Triple before.Kept (resolveAll ss) (fun _ => before.Kept) before.Kept
  | [], _ => .pure fun _ h => h
  | s :: ss, before =>
    .bind (kept_of_grown (fun r => resolve_grown s r []) before) fun _ => resolveAll_kept ss before
termination_by structural ss => ss

theorem resolveOption_grown : ∀ (s : Option Stmt) (before : Resolver) (names : List String),
    Triple (before.Grown names) (resolveOption s)
      (fun _ => before.Grown (names ++ declaredOption s)) before.Kept
  | none, _, _ => resolve_grown_nil (.pure ())
  | some s, before, names => resolve_grown s before names
termination_by structural s => s

theorem resolveFn_onlyFinds : ∀ f : FnDecl Stmt, OnlyFinds (resolveFn f)
  | ⟨_, params, _, body, _, _⟩ => by
    refine fun P hP => .reading fun r hr => ?_
    have hbody : ∀ r : Resolver, Triple r.enterFunction.Kept
        (do resolveParams params; resolveAll body) (fun _ => r.enterFunction.Kept)
        r.enterFunction.Kept := fun r =>
      .bind (resolveParams_kept params _) fun _ => resolveAll_kept body _
    -- the loops around the function are those of the state in which it is entered
    refine .between fun s hs => ?_
    subst hs
    refine (hbody s).mono (fun t ht => ht ▸ .refl _) (fun _ t ht => ?_) (fun t ht => ?_)
    · rw [ht.inFunction]
      exact hP s _ hr
    · rw [ht.inFunction]
      exact hP s _ hr
termination_by structural f => f

theorem resolveMethods_onlyFinds : ∀ ms : List (MethodDecl Stmt), OnlyFinds (resolveMethods ms)
  | [] => .pure ()
  | ⟨_, function⟩ :: ms =>
    .bind (resolveFn_onlyFinds function) fun _ => resolveMethods_onlyFinds ms
termination_by structural ms => ms

end

end Stmt

end ScriptCheck
