import ScriptCheck.Proofs.Binding.Looking
import ScriptCheck.Proofs.Resolving.Discipline

/-!
Binding keeps its scopes, of values and of types alike. Whether a statement is bound or rejected, the
scopes that it opened are closed and the scopes around it are what they were; if it is bound, the
innermost scopes hold the values and the types that it declares, and no others besides.
-/

namespace ScriptCheck

namespace Stmt

mutual

/-- The type names that a statement leaves in the scope it stands in. -/
def declaredTypes : Stmt → List String
  | .classDecl _ name _ _ _ _ => [name]
  | .typeDecl _ name _ => [name]
  | .ifElse _ _ onTrue onFalse => declaredTypes onTrue ++ declaredTypesOption onFalse
  | .whileLoop _ _ body => declaredTypes body
  | .expr _ _ | .block _ _ | .varDecl _ _ _ _ _ | .forIn _ _ _ _ _ | .fnDecl _ | .ret _ _
  | .jump _ _ => []
termination_by structural s => s

/-- The type names that an optional statement leaves in its scope. -/
def declaredTypesOption : Option Stmt → List String
  | none => []
  | some s => declaredTypes s
termination_by structural s => s

end

end Stmt

namespace Binder

/-- The scopes of values and of types are kept, and so are the classes around and the distances. -/
structure Kept (before after : Binder) : Prop where
  values : before.scopes.Kept after.scopes
  types : before.types.scopes.Kept after.types.scopes
  classes : after.classes = before.classes
  distances : after.distances = before.distances

/-- All is kept, and the innermost scopes have gained the given values and types. -/
structure Grown (before : Binder) (vs ts : List String) (after : Binder) : Prop
    extends Kept before after where
  grownValues : before.scopes.Grown vs after.scopes
  grownTypes : before.types.scopes.Grown ts after.types.scopes

variable {before between after b t : Binder} {vs ws ts us : List String}

namespace Kept

theorem refl (b : Binder) : Kept b b := ⟨.refl _, .refl _, rfl, rfl⟩

theorem trans (h : Kept before between) (h' : Kept between after) : Kept before after :=
  ⟨h.values.trans h'.values, h.types.trans h'.types, h'.classes.trans h.classes,
    h'.distances.trans h.distances⟩

theorem define (h : Kept before after) (name : String) (type : Ty) (writable : Bool) :
    Kept before (after.define name type writable) :=
  { h with values := h.values.trans (.insert _ name _) }

theorem declareType (h : Kept before after) (name : String) (type : Ty) :
    Kept before (after.declareType name type) :=
  { h with types := h.types.trans (.insert _ name type) }

theorem defineParams (h : Kept before after) (ps : List (String × Ty)) :
    Kept before (ScriptCheck.defineParams ps after) := by
  induction ps generalizing after with
  | nil => exact h
  | cons p ps ih => exact ih (h.define p.1 p.2 true)

/-- Only types of expressions are new once the scope that was opened is closed. -/
theorem inScope (h : Kept b.push t) : t.pop = { b with boundTypes := t.boundTypes } := by
  have htypes : t.types.pop = b.types := congrArg Registry.mk h.types.pop_eq
  unfold pop
  rw [h.values.pop_eq, htypes, h.classes, h.distances]
  rfl

theorem inClass {name : String} {type : Ty}
    (h : Kept ((b.enterClass name).defineConst "this" type) t) :
    t.leaveClass = { b with boundTypes := t.boundTypes } := by
  have hvalues : t.scopes.pop = b.scopes :=
    ((ScopeStack.Kept.insert b.scopes.push "this" _).trans h.values).pop_eq
  have htypes : b.types.scopes.push.Kept t.types.scopes := h.types
  have hpop : t.types.pop = b.types := congrArg Registry.mk htypes.pop_eq
  unfold leaveClass pop
  rw [hvalues, hpop, h.classes, h.distances]
  rfl

end Kept

namespace Grown

theorem refl (b : Binder) : Grown b [] [] b := ⟨.refl b, .refl _, .refl _⟩

theorem define (h : Grown before vs ts after) (name : String) (type : Ty) (writable : Bool) :
    Grown before (vs ++ [name]) ts (after.define name type writable) :=
  ⟨h.toKept.define name type writable, h.grownValues.trans (.insert _ name _), h.grownTypes⟩

/-- A value that was gained is declared anew. -/
theorem redefine (h : Grown before vs ts after) {name : String} (hname : name ∈ vs) (type : Ty)
    (writable : Bool) : Grown before vs ts (after.define name type writable) :=
  ⟨h.toKept.define name type writable, h.grownValues.rewrite hname _, h.grownTypes⟩

theorem declareType (h : Grown before vs ts after) (name : String) (type : Ty) :
    Grown before vs (ts ++ [name]) (after.declareType name type) :=
  ⟨h.toKept.declareType name type, h.grownValues, h.grownTypes.trans (.insert _ name type)⟩

/-- A type that was gained is declared anew. -/
theorem redeclareType (h : Grown before vs ts after) {name : String} (hname : name ∈ ts)
    (type : Ty) : Grown before vs ts (after.declareType name type) :=
  ⟨h.toKept.declareType name type, h.grownValues, h.grownTypes.rewrite hname type⟩

end Grown

/-- A condition on binders that does not look at the types of expressions. -/
def Stable (P : Binder → Prop) : Prop := ∀ b ts, P b → P { b with boundTypes := ts }

theorem stable_kept (before : Binder) : Stable (Kept before) := fun _ _ h => { h with }

theorem stable_grown (before : Binder) (vs ts : List String) : Stable (Grown before vs ts) :=
  fun _ _ h => { h with }

/-- A step that changes nothing but the types of expressions. -/
abbrev OnlyNotes {α : Type} (m : Binding α) : Prop := KeepsEach Stable m

namespace OnlyNotes

variable {α : Type} {m : Binding α}

/-- What is bound in a scope of its own leaves nothing but types of expressions behind. -/
theorem inScope {enter leave : Binder → Binder}
    (hm : ∀ b, Triple (enter b).Kept m (fun _ => (enter b).Kept) (enter b).Kept)
    (hleave : ∀ b t, (enter b).Kept t → leave t = { b with boundTypes := t.boundTypes }) :
    OnlyNotes (ScriptCheck.between enter leave m) := by
  refine fun P hP => .between fun b hb => ?_
  refine (hm b).mono (fun s hs => hs ▸ .refl _) (fun _ t ht => ?_) (fun t ht => ?_)
  · rw [hleave b t ht]
    exact hP b _ hb
  · rw [hleave b t ht]
    exact hP b _ hb

end OnlyNotes

/-- A step that grows the innermost scopes, from whatever binder, keeps the scopes. -/
theorem kept_of_grown {α : Type} {m : Binding α}
    (h : ∀ b : Binder, Triple (b.Grown [] []) m (fun _ => b.Grown vs ts) b.Kept)
    (before : Binder) : Triple before.Kept m (fun _ => before.Kept) before.Kept :=
  .intro (fun b _ _ hb hm => hb.trans ((h b).of_ok (.refl b) hm).toKept)
    (fun b _ _ hb hm => hb.trans ((h b).of_error (.refl b) hm))

end Binder

open Binder Binding

/-! ### Expressions -/

namespace Binding

theorem note_onlyNotes (id : Nat) (type : Ty) : OnlyNotes (note id type) :=
  fun _ hP => .modified fun b hb => hP b _ hb

theorem finish_onlyNotes (node : Node) (type : Ty) : OnlyNotes (finish node type) :=
  .bind (note_onlyNotes node.id type) fun _ => .pure _

end Binding

namespace Expr

mutual

/-- Binding an expression changes nothing but the types of expressions, whether or not it fails. -/
theorem bind_onlyNotes : ∀ e : Expr, OnlyNotes e.bind
  | .literal node _ => .bind (finish_onlyNotes node _) fun _ => .pure _
  | .keyword node _ => .bind (finish_onlyNotes node _) fun _ => .pure _
  | .symbol node name =>
    .bind (.of_looks (readVariable_looks name node.id node.span.start)) fun _ =>
      .bind (finish_onlyNotes node _) fun _ => .pure _
  | .array node elements =>
    .bind (bindAll_onlyNotes elements) fun _ => .bind (finish_onlyNotes node _) fun _ => .pure _
  | .object node entries =>
    .bind (bindEntries_onlyNotes entries) fun _ => .bind (finish_onlyNotes node _) fun _ => .pure _
  | .binary node operator left right => by
    refine .bind (bind_onlyNotes left) fun l => .bind (bind_onlyNotes right) fun r => ?_
    cases BinaryOperator.bind? operator.kind l.type r.type with
    | some use => exact .bind (finish_onlyNotes node _) fun _ => .pure _
    | none => exact .fails _
  | .unary node operator operand => by
    have hrest : ∀ o : BoundExpr, OnlyNotes
        (match UnaryOperator.bind? operator.kind o.type with
          | some use => do return BoundExpr.unary (← finish node use.result) use o
          | none => throw (operatorFailure operator [o.type])) := by
      intro o
      cases UnaryOperator.bind? operator.kind o.type with
      | some use => exact .bind (finish_onlyNotes node _) fun _ => .pure _
      | none => exact .fails _
    exact .ite (.bind (bindTarget_onlyNotes operand) hrest) (.bind (bind_onlyNotes operand) hrest)
  | .assign node operator target value => by
    refine .bind (bindTarget_onlyNotes target) fun t => .bind (bind_onlyNotes value) fun v => ?_
    refine .ite (.bind (finish_onlyNotes node _) fun _ => .pure _) ?_
    cases BinaryOperator.bind? operator.kind t.type v.type with
    | some use => exact .bind (finish_onlyNotes node _) fun _ => .pure _
    | none => exact .fails _
  | .access node receiver key =>
    .bind (bind_onlyNotes receiver) fun _ => .bind (bindKey_onlyNotes key) fun _ =>
      .bind (.of_looks (bindSlot_looks _ _ node.span.start)) fun _ =>
        .bind (finish_onlyNotes node _) fun _ => .pure _
  | .call node callee args =>
    .bind (bind_onlyNotes callee) fun _ => .bind (bindAll_onlyNotes args) fun _ =>
      .bind (.of_looks (callType_looks callee _)) fun _ => .bind (finish_onlyNotes node _) fun _ => .pure _
  | .construct node className classNode args => by
    refine .bind (.of_looks (readVariable_looks className classNode.id classNode.span.start)) fun found => ?_
    obtain ⟨⟨_, type, _⟩, _⟩ := found
    cases type with
    | classType d =>
      exact .bind (note_onlyNotes _ _) fun _ => .bind (bindAll_onlyNotes args) fun _ =>
        .bind (finish_onlyNotes node _) fun _ => .pure _
    | _ => exact .fails _
termination_by structural e => e

theorem bindTarget_onlyNotes : ∀ e : Expr, OnlyNotes e.bindTarget
  | .symbol node name => by
    refine .bind (.of_looks (readVariable_looks name node.id node.span.start)) fun found => ?_
    have hrest : OnlyNotes
        (do return BoundExpr.symbol (← finish node found.1.type) name found.2) :=
      .bind (finish_onlyNotes node _) fun _ => .pure _
    exact .ite hrest (.bind (.fails _) fun _ => hrest)
  | .access node receiver key => by
    refine .bind (bind_onlyNotes receiver) fun r => .bind (bindKey_onlyNotes key) fun k => ?_
    refine .bind (.of_looks (bindSlot_looks _ _ node.span.start)) fun slot => ?_
    have hrest : OnlyNotes (do return BoundExpr.access (← finish node slot.1.type) r k slot.2) :=
      .bind (finish_onlyNotes node _) fun _ => .pure _
    exact .ite hrest (.bind (.fails _) fun _ => hrest)
  | .literal _ _ => .fails _
  | .keyword _ _ => .fails _
  | .array _ _ => .fails _
  | .object _ _ => .fails _
  | .binary _ _ _ _ => .fails _
  | .unary _ _ _ => .fails _
  | .assign _ _ _ _ => .fails _
  | .call _ _ _ => .fails _
  | .construct _ _ _ _ => .fails _
termination_by structural e => e

theorem bindAll_onlyNotes : ∀ es : List Expr, OnlyNotes (bindAll es)
  | [] => .pure _
  | e :: es => .bind (bind_onlyNotes e) fun _ => .bind (bindAll_onlyNotes es) fun _ => .pure _
termination_by structural es => es

theorem bindKey_onlyNotes : ∀ k : Key Expr, OnlyNotes (bindKey k)
  | .name _ _ => .pure _
  | .computed e => .bind (bind_onlyNotes e) fun _ => .pure _
termination_by structural k => k

theorem bindEntries_onlyNotes : ∀ es : List (Entry Expr), OnlyNotes (bindEntries es)
  | [] => .pure _
  | ⟨key, value⟩ :: es => by
    refine .bind (bindKey_onlyNotes key) fun k => ?_
    have hrest : OnlyNotes
        (do
          let value ← bind value
          let rest ← bindEntries es
          return ⟨k, value⟩ :: rest) :=
      .bind (bind_onlyNotes value) fun _ => .bind (bindEntries_onlyNotes es) fun _ => .pure _
    cases k with
    | computed k => exact .bind (.of_looks (expectKey_looks k)) fun _ => hrest
    | name text => exact hrest
termination_by structural es => es

end

theorem bindOption_onlyNotes : ∀ e : Option Expr, OnlyNotes (bindOption e)
  | some e => .bind e.bind_onlyNotes fun _ => .pure _
  | none => .pure _

end Expr

/-! ### Parts of statements -/

theorem bindFields_onlyNotes : ∀ (fs : List FieldDecl) (ms : List (Member Ty)),
    OnlyNotes (bindFields fs ms)
  | [], _ => .pure _
  | _ :: _, [] => .pure _
  | f :: fs, _ :: ms =>
    .bind (Expr.bindOption_onlyNotes f.value) fun _ =>
      .bind (bindFields_onlyNotes fs ms) fun _ => .pure _

/-! ### Statements -/

namespace Stmt

variable {before : Binder} {vs ts : List String}

/-- A step that only notes types, where values and types have been gained. -/
theorem grown_of_onlyNotes {α : Type} {m : Binding α} (h : OnlyNotes m) :
    Triple (before.Grown vs ts) m (fun _ => before.Grown vs ts) before.Kept :=
  (h _ (stable_grown before vs ts)).mono (fun _ hs => hs) (fun _ _ hs => hs) fun _ hs => hs.toKept

/-- A statement that declares nothing. -/
theorem bind_grown_nil {α : Type} {m : Binding α} (h : OnlyNotes m) :
    Triple (before.Grown vs ts) m (fun _ => before.Grown (vs ++ []) (ts ++ [])) before.Kept := by
  rw [List.append_nil, List.append_nil]
  exact grown_of_onlyNotes h

mutual

/-- A statement grows the innermost scopes by the values and types that it declares, or fails and keeps
the scopes. -/
theorem bind_grown : ∀ (s : Stmt) (before : Binder) (vs ts : List String),
    Triple (before.Grown vs ts) s.bind
      (fun _ => before.Grown (vs ++ s.declared) (ts ++ s.declaredTypes)) before.Kept
  | .expr _ e, _, _, _ => bind_grown_nil (.bind e.bind_onlyNotes fun _ => .pure _)
  | .block _ body, _, _, _ => by
    have hbody : OnlyNotes (ScriptCheck.between Binder.push Binder.pop (bindAll body)) :=
      .inScope (fun b => bindAll_kept body b.push) fun _ _ => Kept.inScope
    exact bind_grown_nil (.bind hbody fun _ => .pure _)
  | .varDecl _ name isConst type value, before, vs, ts => by
    refine .bind (grown_of_onlyNotes (.of_looks (typeOrAny_looks type))) fun declared => ?_
    refine .bind (grown_of_onlyNotes (Expr.bindOption_onlyNotes value)) fun bound => ?_
    refine .bind (Q := fun _ => before.Grown (vs ++ [name]) ts)
      (.modified fun _ hb => hb.define name _ _) fun _ => .pure fun _ hb => ?_
    rw [declaredTypes, List.append_nil]
    exact hb
  | .ifElse _ condition onTrue onFalse, before, vs, ts => by
    refine .bind (grown_of_onlyNotes condition.bind_onlyNotes) fun _ => ?_
    rw [declared, declaredTypes, ← List.append_assoc, ← List.append_assoc]
    exact .bind (bind_grown onTrue before vs ts) fun _ =>
      .bind (bindOption_grown onFalse before _ _) fun _ => .pure fun _ hb => hb
  | .whileLoop _ condition body, before, vs, ts =>
    .bind (grown_of_onlyNotes condition.bind_onlyNotes) fun _ =>
      .bind (bind_grown body before vs ts) fun _ => .pure fun _ hb => hb
  | .forIn _ name iterable _ body, before, vs, ts => by
    refine .bind (grown_of_onlyNotes iterable.bind_onlyNotes) fun bound => ?_
    have hkept : ∀ b : Binder, b.push.Kept (b.push.define name (iterationType bound.type) true) :=
      fun b => (Kept.refl _).define name _ true
    have hbody : OnlyNotes (ScriptCheck.between
        (fun b => b.push.define name (iterationType bound.type) true) Binder.pop (bindAll body)) :=
      .inScope (fun b => bindAll_kept body _) fun b _ ht => ((hkept b).trans ht).inScope
    exact bind_grown_nil (.bind hbody fun _ => .pure _)
  | .fnDecl f, before, vs, ts => by
    have hname : f.name ∈ vs ++ [f.name] := List.mem_append_right _ (List.mem_singleton.2 rfl)
    refine .bind (grown_of_onlyNotes (.of_looks (bindSignature_looks f.params f.result))) fun signature => ?_
    refine .bind (Q := fun _ => before.Grown (vs ++ [f.name]) ts)
      (.modified fun _ hb => hb.define f.name _ _) fun _ => ?_
    refine .bind (grown_of_onlyNotes (bindFn_onlyNotes f signature)) fun function => ?_
    rw [declaredTypes, List.append_nil]
    refine .ite ?_ (.pure fun _ hb => hb)
    exact .bind (Q := fun _ => before.Grown (vs ++ [f.name]) ts)
      (.modified fun _ hb => hb.redefine hname _ _) fun _ => .pure fun _ hb => hb
  | .ret _ value, _, _, _ =>
    bind_grown_nil (.bind (Expr.bindOption_onlyNotes value) fun _ => .pure _)
  | .jump _ _, _, _, _ => bind_grown_nil (.pure _)
  | .classDecl _ name superclass mixins fields methods, before, vs, ts => by
    have hvalue : name ∈ vs ++ [name] := List.mem_append_right _ (List.mem_singleton.2 rfl)
    have htype : name ∈ ts ++ [name] := List.mem_append_right _ (List.mem_singleton.2 rfl)
    refine .bind (Q := fun _ => before.Grown vs (ts ++ [name]))
      (.modified fun _ hb => hb.declareType name _) fun _ => ?_
    refine .bind (grown_of_onlyNotes (.of_looks (bindSuperclass_looks superclass))) fun superclass => ?_
    refine .bind (grown_of_onlyNotes (.of_looks (bindMixins_looks mixins))) fun mixins => ?_
    refine .bind (grown_of_onlyNotes (.of_looks (fieldMembers_looks fields))) fun own => ?_
    refine .bind (grown_of_onlyNotes (.of_looks (methodMembers_looks methods))) fun signatures => ?_
    refine .bind (Q := fun _ => before.Grown (vs ++ [name]) (ts ++ [name]))
      (.modified fun _ hb => (hb.redeclareType htype _).define name _ _) fun _ => ?_
    have hinner : OnlyNotes (do
        let fields ← bindFields fields (own ++ signatures)
        let methods ← bindMethods methods
        return (fields, methods)) :=
      .bind (bindFields_onlyNotes fields _) fun _ =>
        .bind (bindMethods_onlyNotes methods) fun _ => .pure _
    refine .bind (grown_of_onlyNotes (.inScope (fun b => hinner _ (stable_kept _))
      fun _ _ => Kept.inClass)) fun _ => ?_
    exact .bind (Q := fun _ => before.Grown (vs ++ [name]) (ts ++ [name]))
      (.modified fun _ hb => (hb.redeclareType htype _).redefine hvalue _ _) fun _ =>
      .pure fun _ hb => hb
  | .typeDecl _ name ref, before, vs, ts => by
    have htype : name ∈ ts ++ [name] := List.mem_append_right _ (List.mem_singleton.2 rfl)
    refine .bind (Q := fun _ => before.Grown vs (ts ++ [name]))
      (.modified fun _ hb => hb.declareType name _) fun _ => ?_
    refine .bind (grown_of_onlyNotes (.of_looks (typeOf_looks ref))) fun t => ?_
    rw [declared, List.append_nil]
    exact .bind (Q := fun _ => before.Grown vs (ts ++ [name]))
      (.modified fun _ hb => hb.redeclareType htype _) fun _ => .pure fun _ hb => hb
termination_by structural s => s

theorem bindAll_kept : ∀ (ss : List Stmt) (before : Binder),
    Triple before.Kept (bindAll ss) (fun _ => before.Kept) before.Kept
  | [], _ => .pure fun _ h => h
  | s :: ss, before =>
    .bind (kept_of_grown (fun b => bind_grown s b [] []) before) fun _ =>
      .bind (bindAll_kept ss before) fun _ => .pure fun _ h => h
termination_by structural ss => ss

theorem bindOption_grown : ∀ (s : Option Stmt) (before : Binder) (vs ts : List String),
    Triple (before.Grown vs ts) (bindOption s)
      (fun _ => before.Grown (vs ++ declaredOption s) (ts ++ declaredTypesOption s)) before.Kept
  | none, _, _, _ => bind_grown_nil (.pure _)
  | some s, before, vs, ts =>
    .bind (bind_grown s before vs ts) fun _ => .pure fun _ hb => hb
termination_by structural s => s

theorem bindFn_onlyNotes : ∀ (f : FnDecl Stmt) (signature : Signature Ty),
    OnlyNotes (bindFn signature f)
  | ⟨_, _, _, body, _, _⟩, signature => by
    have hkept : ∀ b : Binder, b.push.Kept (defineParams signature.params b.push) := fun b =>
      (Kept.refl _).defineParams signature.params
    have hbody : OnlyNotes (ScriptCheck.between
        (fun b => defineParams signature.params b.push) Binder.pop (bindAll body)) :=
      .inScope (fun b => bindAll_kept body _) fun b _ ht => ((hkept b).trans ht).inScope
    exact .bind hbody fun _ => .pure _
termination_by structural f => f

theorem bindMethods_onlyNotes : ∀ ms : List (MethodDecl Stmt), OnlyNotes (bindMethods ms)
  | [] => .pure _
  | ⟨_, function⟩ :: ms =>
    .bind (.of_looks (bindSignature_looks function.params function.result)) fun signature =>
      .bind (bindFn_onlyNotes function signature) fun _ =>
        .bind (bindMethods_onlyNotes ms) fun _ => .pure _
termination_by structural ms => ms

end

/-- From any state, a statement that is resolved or bound leaves as many scopes open as there were, with
all but the innermost ones unchanged, and stands in as many functions, loops and classes as before; so
does one that is rejected. If it succeeds, the innermost scopes gain the values and the types that it
declares, and every other name is seen as before. -/
theorem scope_discipline (s : Stmt) :
    (∀ r : Resolver, Triple (· = r) s.resolve
      (fun _ r' => r.Kept r' ∧ r.scopes.Grown s.declared r'.scopes ∧
        ∀ name ∉ s.declared, r'.scopes.lookup name = r.scopes.lookup name) r.Kept) ∧
    ∀ b : Binder, Triple (· = b) s.bind
      (fun _ b' => b.Kept b' ∧ b.scopes.Grown s.declared b'.scopes ∧
        b.types.scopes.Grown s.declaredTypes b'.types.scopes ∧
        (∀ name ∉ s.declared, b'.scopes.lookup name = b.scopes.lookup name) ∧
        ∀ name ∉ s.declaredTypes, b'.types.get? name = b.types.get? name) b.Kept := by
  refine ⟨fun r => ?_, fun b => ?_⟩
  · refine (resolve_grown s r []).mono (fun t ht => ht ▸ .refl r) (fun _ t ht => ?_) fun _ ht => ht
    exact ⟨ht.toKept, ht.grown, fun name hname => ht.grown.lookup_eq hname⟩
  · refine (bind_grown s b [] []).mono (fun t ht => ht ▸ .refl b) (fun _ t ht => ?_) fun _ ht => ht
    refine ⟨ht.toKept, ht.grownValues, ht.grownTypes, fun name hname => ?_, fun name hname => ?_⟩
    · exact ht.grownValues.lookup_eq hname
    · exact congrArg (Option.map Prod.snd) (ht.grownTypes.lookup_eq hname)

end Stmt

end ScriptCheck
