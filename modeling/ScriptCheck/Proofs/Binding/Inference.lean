import ScriptCheck.Proofs.Binding.Occurrences
import ScriptCheck.Proofs.Binding.Record
import ScriptCheck.Proofs.Contract.Demands
import ScriptCheck.Proofs.Ty.Covering

/-!
Inference is not contradicted by checking. What is demanded of statements stands beside what was written
there: the type of a variable, or the result of the function around a return. Where nothing was written,
or `any` for a variable, the demanded type was found by binding, and the demand is met.
-/

namespace ScriptCheck

open Ty (IsNormal closed_isNormal)
open Binder Binding

/-! ### What was written -/

/-- What was written where something is demanded, and where the value stands of which it is demanded. -/
inductive Ascription where
  /-- The type of a variable that has an initial value. -/
  | declaration (type : Option TypeRef) (value : Position)
  /-- The result of the innermost function around a return. -/
  | result (type : Option TypeRef) (value : Position)

/-- The demanded type is left to inference: none was written, or a variable was given the type `any`. -/
def Ascription.Inferred (types : Registry) : Ascription → Prop
  | .declaration none _ | .result none _ => True
  | .declaration (some ref) _ => ∃ t, ref.toTy types = .ok t ∧ t.isAny = true
  | .result (some _) _ => False

instance (types : Registry) : DecidablePred (Ascription.Inferred types)
  | .declaration none _ | .result none _ => isTrue trivial
  | .result (some _) _ => isFalse id
  | .declaration (some ref) _ =>
    match h : ref.toTy types with
    | .ok t =>
      if hany : t.isAny = true then isTrue ⟨t, h, hany⟩
      else isFalse fun ⟨_, hu, hany'⟩ => hany (Except.ok.inj (h.symm.trans hu) ▸ hany')
    | .error _ => isFalse fun ⟨_, hu, _⟩ => nomatch h.symm.trans hu

/-- The rule is about the value that was written there: an initial value, or what is returned. -/
def Ascription.Concerns : Ascription → Rule → Prop
  | .declaration _ value, r => ∃ received expected, r = .goesInto received expected value .typeMismatch
  | .result _ value, r => ∃ received expected, r = .goesInto received expected value .returnMismatch

namespace Stmt

mutual

/-- What was written in a statement, where the innermost function around it has the given result. -/
def ascriptions : Stmt → Option (Option TypeRef) → List Ascription
  | .varDecl _ _ _ type value, _ => value.toList.map fun v => .declaration type v.span.start
  | .ret span value, around =>
    around.toList.map fun type => .result type ((value.map Expr.span).getD span).start
  | .block _ body, around => ascriptionsAll body around
  | .ifElse _ _ onTrue onFalse, around => ascriptions onTrue around ++ ascriptionsOption onFalse around
  | .whileLoop _ _ body, around => ascriptions body around
  | .forIn _ _ _ _ body, around => ascriptionsAll body around
  | .fnDecl f, _ => ascriptionsFn f
  | .classDecl _ _ _ _ _ methods, _ => ascriptionsMethods methods
  | .expr _ _, _ | .jump _ _, _ | .typeDecl _ _ _, _ => []
termination_by structural s => s

/-- What was written in statements. -/
def ascriptionsAll : List Stmt → Option (Option TypeRef) → List Ascription
  | [], _ => []
  | s :: ss, around => ascriptions s around ++ ascriptionsAll ss around
termination_by structural ss => ss

/-- What was written in an optional statement. -/
def ascriptionsOption : Option Stmt → Option (Option TypeRef) → List Ascription
  | none, _ => []
  | some s, around => ascriptions s around
termination_by structural s => s

/-- What was written in the body of a function. -/
def ascriptionsFn : FnDecl Stmt → List Ascription
  | ⟨_, _, result, body, _, _⟩ => ascriptionsAll body (some result)
termination_by structural f => f

/-- What was written in methods. -/
def ascriptionsMethods : List (MethodDecl Stmt) → List Ascription
  | [] => []
  | ⟨_, function⟩ :: ms => ascriptionsFn function ++ ascriptionsMethods ms
termination_by structural ms => ms

end

end Stmt

/-- What is demanded where something was written; if the type is left to inference, the demand is met. -/
structure Ascription.Agrees (a : Ascription) (d : Demand) : Prop where
  concerns : a.Concerns d.rule
  holds : a.Inferred d.place.types → d.rule.Holds

/-! ### Where values stand -/

/-- A bound expression stands where the expression does. -/
theorem Expr.span_of_bind {e : Expr} {b b' : Binder} {t : BoundExpr} (h : e.bind b = .ok t b') :
    t.span = e.span := by
  obtain ⟨es, -, hrecord⟩ := e.bind_records h
  have hrecorded := hrecord.recorded
  obtain ⟨xs, hxs⟩ : ∃ xs, e.subterms = e :: xs := by cases e <;> exact ⟨_, rfl⟩
  obtain ⟨ys, hys⟩ : ∃ ys, t.subterms = t :: ys := by cases t <;> exact ⟨_, rfl⟩
  rw [hxs, hys, List.forall₂_cons] at hrecorded
  have hnoted := hrecorded.1.noted
  unfold BoundExpr.span Expr.span
  generalize e.node = node, t.node = n at hnoted
  cases hnoted
  rfl

theorem Expr.span_of_bindOption {e : Option Expr} {b b' : Binder} {t : Option BoundExpr}
    (h : Expr.bindOption e b = .ok t b') : t.map BoundExpr.span = e.map Expr.span := by
  cases e with
  | none =>
    cases h
    rfl
  | some e =>
    obtain ⟨t, _, ht, hbound⟩ := ok_of_bind h
    cases hbound
    exact congrArg some (span_of_bind ht)

/-! ### Types that stand for `any` -/

/-- Whatever two computations give is related. -/
def BothGive {α : Type} (R : α → α → Prop) (x y : Except Diagnostic α) : Prop :=
  ∀ a b, x = .ok a → y = .ok b → R a b

namespace BothGive

variable {α β : Type} {R : α → α → Prop} {S : β → β → Prop}

theorem ok {a b : α} (h : R a b) : BothGive R (.ok a) (.ok b) := by
  rintro _ _ ⟨⟩ ⟨⟩
  exact h

theorem anything (x y : Except Diagnostic α) : BothGive (fun _ _ => True) x y :=
  fun _ _ _ _ => trivial

theorem bind {x y : Except Diagnostic α} {f g : α → Except Diagnostic β} (h : BothGive R x y)
    (hf : ∀ a b, R a b → BothGive S (f a) (g b)) : BothGive S (x >>= f) (y >>= g) := by
  intro c d hc hd
  cases x with
  | error e => cases hc
  | ok a =>
    cases y with
    | error e => cases hd
    | ok b => exact hf a b (h a b rfl rfl) c d hc hd

end BothGive

namespace Ty

/-- The second type takes anything if the first one does. -/
def TakesAsMuch (t u : Ty) : Prop := t.TakesAny → u.TakesAny

theorem Alike.takesAsMuch {t u : Ty} (h : u.Alike t) : t.TakesAsMuch u := by
  intro ht
  cases h with
  | refl => exact ht
  | classes _ =>
    cases ht with
    | any hany => cases hany

theorem takesAny_named {name : String} {args : List Ty} :
    (named name args).TakesAny ↔ name = "any" := by
  constructor
  · rintro ⟨h⟩
    exact beq_iff_eq.1 h
  · rintro rfl
    exact .any rfl

/-- Only the number of arguments matters. -/
theorem generic_takesAsMuch {name : String} {ts us : List Ty} (h : ts.length = us.length) :
    (generic name ts).TakesAsMuch (generic name us) := by
  unfold generic
  rcases ts with _ | ⟨t, _ | ⟨t', ts⟩⟩ <;> rcases us with _ | ⟨u, _ | ⟨u', us⟩⟩ <;>
    simp only [List.length_cons, List.length_nil] at h
  · exact fun ht => ht
  · omega
  · omega
  · omega
  · dsimp only
    split
    · rintro ⟨⟨⟩⟩
    · exact fun ht => takesAny_named.2 (takesAny_named.1 ht)
  · omega
  · omega
  · omega
  · exact fun ht => takesAny_named.2 (takesAny_named.1 ht)

theorem unionOf_takesAsMuch {ts us : List Ty} (h : List.Forall₂ TakesAsMuch ts us) :
    (unionOf ts).TakesAsMuch (unionOf us) := by
  intro htakes
  obtain ⟨t, ht, htakes⟩ := takesAny_unionOf.1 htakes
  obtain ⟨u, hu, htu⟩ := exists_of_forall₂_right h.flip ht
  exact takesAny_unionOf.2 ⟨u, hu, htu htakes⟩

theorem intersectionOf_takesAsMuch {ts us : List Ty} (h : List.Forall₂ TakesAsMuch ts us) :
    (intersectionOf ts).TakesAsMuch (intersectionOf us) := by
  intro htakes
  refine takesAny_intersectionOf.2 fun u hu => ?_
  obtain ⟨t, ht, htu⟩ := exists_of_forall₂_right h hu
  exact htu (takesAny_intersectionOf.1 htakes t ht)

end Ty

/-- The names that the registries know stand for types that are alike. -/
def Registry.Alike (r r' : Registry) : Prop :=
  ∀ name, Option.Rel (fun t u => u.Alike t) (r.get? name) (r'.get? name)

variable {r r' : Registry}

theorem Registry.Alike.resolve (h : r.Alike r') (name : String) {ts us : List Ty}
    (hargs : ts.length = us.length) (span : Span) :
    BothGive Ty.TakesAsMuch (r.resolve name ts span) (r'.resolve name us span) := by
  have hempty : us.isEmpty = ts.isEmpty := by
    rw [Bool.eq_iff_iff, List.isEmpty_iff_length_eq_zero, List.isEmpty_iff_length_eq_zero, hargs]
  have hname := h name
  unfold Registry.resolve
  rw [hempty]
  split
  · split
    · exact .ok fun ht => ht
    · exact .ok (Ty.generic_takesAsMuch hargs)
  · generalize r.get? name = x, r'.get? name = y at hname
    cases hname with
    | none => exact fun _ _ ht => nomatch ht
    | some halike =>
      dsimp only
      split
      · exact .ok halike.takesAsMuch
      · exact .ok (Ty.generic_takesAsMuch hargs)

namespace TypeRef

mutual

/-- A reference takes as much in registries that are alike. -/
theorem toTy_takesAsMuch (h : r.Alike r') :
    ∀ ref : TypeRef, BothGive Ty.TakesAsMuch (ref.toTy r) (ref.toTy r')
  | .named name args span =>
    .bind (allToTy_takesAsMuch h args) fun _ _ hargs => h.resolve name hargs.length_eq span
  | .array _ _ => .bind (.anything _ _) fun _ _ _ => .ok (by rintro ⟨⟨⟩⟩)
  | .union members _ =>
    .bind (allToTy_takesAsMuch h members) fun _ _ hall => .ok (Ty.unionOf_takesAsMuch hall)
  | .intersection members _ =>
    .bind (allToTy_takesAsMuch h members) fun _ _ hall => .ok (Ty.intersectionOf_takesAsMuch hall)
  | .interface _ _ _ =>
    .bind (.anything _ _) fun _ _ _ => .bind (.anything _ _) fun _ _ _ => .ok (by rintro ⟨⟨⟩⟩)
  | .function _ _ _ =>
    .bind (.anything _ _) fun _ _ _ => .bind (.anything _ _) fun _ _ _ => .ok (by rintro ⟨⟨⟩⟩)
  | .literal _ _ => .ok fun ht => ht
termination_by structural ref => ref

theorem allToTy_takesAsMuch (h : r.Alike r') : ∀ refs : List TypeRef,
    BothGive (List.Forall₂ Ty.TakesAsMuch) (allToTy r refs) (allToTy r' refs)
  | [] => .ok .nil
  | ref :: refs =>
    .bind (toTy_takesAsMuch h ref) fun _ _ ht =>
      .bind (allToTy_takesAsMuch h refs) fun _ _ hts => .ok (.cons ht hts)
termination_by structural refs => refs

end

end TypeRef

/-! ### Variables -/

/-- A value goes into the type of its variable if that was declared to take anything. -/
theorem variableType_takes {declared : Ty} (hdeclared : declared.TakesAny) {value : BoundExpr}
    (hvalue : value.type.Every IsNormal) :
    value.type.isAssignableTo (variableType declared (some value)) = true := by
  unfold variableType
  dsimp only
  split
  · exact Ty.assignable_of_covers hvalue (.refl (closed_isNormal.widened hvalue))
  · split
    · exact (Ty.takesAny_unionOf.2 ⟨declared, List.mem_cons_self, hdeclared⟩).assignable hvalue.here
    · exact hdeclared.assignable hvalue.here

theorem toTy_of_typeOf {ref : TypeRef} {b b' : Binder} {t : Ty} (h : typeOf ref b = .ok t b') :
    ref.toTy b.types = .ok t := by
  unfold typeOf at h
  obtain ⟨_, _, hget, h⟩ := ok_of_bind h
  cases hget
  cases hok : ref.toTy b.types with
  | ok u =>
    rw [hok] at h
    cases h
    rfl
  | error d =>
    rw [hok] at h
    cases h

/-- What is declared takes anything if it is left to inference, also while classes are being bound. -/
theorem typeOrAny_takesAny {p : Place} {b : Binder} (hp : p.Fits IsNormal b) {type : Option TypeRef}
    {declared : Ty} (h : typeOrAny type b = .ok declared b) {position : Position}
    (hinferred : (Ascription.declaration type position).Inferred p.types) : declared.TakesAny := by
  cases type with
  | none =>
    cases h
    exact .any rfl
  | some ref =>
    obtain ⟨t, ht, hany⟩ := hinferred
    have hdeclared := toTy_of_typeOf h
    exact ref.toTy_takesAsMuch hp.get? t declared ht hdeclared (.any hany)

/-! ### Returns -/

/-- What is expected of a return, beside the result that was written: if none was, what is expected covers
what is returned. -/
inductive Anticipates (returns : Option Ty) : Option (Option TypeRef) → Option Ty → Prop
  | outside : Anticipates returns none none
  | written (ref : TypeRef) (t : Ty) : Anticipates returns (some (some ref)) (some t)
  | inferred {t : Ty} (h : ∀ u ∈ returns, t.Covers u) : Anticipates returns (some none) (some t)

/-- The union of return types covers each of them. -/
theorem covers_joinReturns {types : List (Option Ty)} (h : ∀ o ∈ types, ∀ u ∈ o, u.Every IsNormal)
    {o : Option Ty} (ho : o ∈ types) {u : Ty} (hu : u ∈ o) :
    ∃ t, joinReturns types = some t ∧ t.Covers u := by
  have hmem : u ∈ types.filterMap id := List.mem_filterMap.2 ⟨o, ho, hu⟩
  unfold joinReturns
  split
  · rename_i hnil
    rw [hnil] at hmem
    cases hmem
  · refine ⟨_, rfl, Ty.covers_unionOf (fun t ht => ?_) hmem⟩
    obtain ⟨o', ho', rfl⟩ := List.mem_filterMap.1 ht
    exact h _ ho' t rfl

namespace Anticipates

variable {around : Option (Option TypeRef)} {expected : Option Ty} {types : List (Option Ty)}

/-- What is expected of statements together is expected of each of them. -/
theorem part (h : Anticipates (joinReturns types) around expected)
    (htypes : ∀ o ∈ types, ∀ u ∈ o, u.Every IsNormal) {o : Option Ty} (ho : o ∈ types) :
    Anticipates o around expected := by
  cases h with
  | outside => exact .outside
  | written ref t => exact .written ref t
  | inferred h =>
    refine .inferred fun u hu => ?_
    obtain ⟨t, ht, hcovers⟩ := covers_joinReturns htypes ho hu
    exact (h t ht).trans hcovers

theorem all {ts : List BoundStmt} (h : Anticipates (joinReturns (ts.map (·.returns))) around expected)
    (hts : ∀ t ∈ ts, ∀ u ∈ t.returns, u.Every IsNormal) :
    ∀ t ∈ ts, Anticipates t.returns around expected :=
  fun _ ht => h.part (List.forall_mem_map.2 hts) (List.mem_map_of_mem ht)

/-- What is expected in a function is its result. -/
theorem body {ts : List BoundStmt} (hts : ∀ t ∈ ts, ∀ u ∈ t.returns, u.Every IsNormal)
    (result : Option TypeRef) (signature : Signature Ty) {t : BoundStmt} (ht : t ∈ ts) :
    Anticipates t.returns (some result) (some (resultType result signature ts)) := by
  cases result with
  | some ref => exact .written ref _
  | none =>
    refine .inferred fun u hu => ?_
    obtain ⟨t, ht, hcovers⟩ :=
      covers_joinReturns (List.forall_mem_map.2 hts) (List.mem_map_of_mem ht) hu
    rw [resultType, ht]
    exact hcovers

/-- What a return gives goes into what is expected of it. -/
theorem ret {value : Option BoundExpr} (h : Anticipates (some (returnType value)) around expected)
    (hvalue : ∀ e ∈ value, e.type.Every IsNormal) {written : Option Expr}
    (hspan : value.map BoundExpr.span = written.map Expr.span) (span : Span) (p : Place) :
    List.Forall₂ Ascription.Agrees ((Stmt.ret span written).ascriptions around)
      ((BoundStmt.ret ⟨span, some (returnType value)⟩ value).demands expected p) := by
  have hrule : ∀ t, ∃ received, (BoundStmt.ret ⟨span, some (returnType value)⟩ value).rules (some t) =
      [.goesInto received t ((written.map Expr.span).getD span).start .returnMismatch] ∧
      (t.Covers (returnType value) → received.isAssignableTo t = true) := by
    intro t
    rw [← hspan]
    cases value with
    | none => exact ⟨.void, rfl, Ty.assignable_of_covers (closed_isNormal.singular _)⟩
    | some e => exact ⟨e.type, rfl, Ty.assignable_of_covers (hvalue e rfl)⟩
  cases h with
  | outside =>
    cases value <;> exact .nil
  | written ref t =>
    obtain ⟨received, heq, -⟩ := hrule t
    rw [BoundStmt.demands, BoundStmt.ownDemands, heq]
    exact .cons ⟨⟨received, t, rfl⟩, fun h => h.elim⟩ .nil
  | @inferred t h =>
    obtain ⟨received, heq, hgoes⟩ := hrule t
    rw [BoundStmt.demands, BoundStmt.ownDemands, heq]
    exact .cons ⟨⟨received, t, rfl⟩, fun _ => hgoes (h _ rfl)⟩ .nil

end Anticipates

/-! ### Statements -/

namespace Stmt

/-- What statements return is in normal form. -/
theorem bindAll_normal {ss : List Stmt} {b b' : Binder} {ts : List BoundStmt} {p : Place}
    (h : bindAll ss b = .ok ts b') (hread : WellRead IsNormal (rootsAll ss) (refsAll ss))
    (hp : p.Fits IsNormal b) : ∀ t ∈ ts, ∀ u ∈ t.returns, u.Every IsNormal := by
  have hsound := bindAll_sound closed_isNormal ss h hread hp fun d _ => d.admitted_isNormal
  exact BoundStmt.every_returnsAll hsound.types

mutual

/-- What is left to inference in a statement agrees with what is demanded of it. -/
theorem bind_agrees : ∀ (s : Stmt) {b b' : Binder} {t : BoundStmt} {p : Place}
    {around : Option (Option TypeRef)} {expected : Option Ty}, s.bind b = .ok t b' →
      WellRead IsNormal s.roots s.refs → p.Fits IsNormal b → Anticipates t.returns around expected →
      List.Forall₂ Ascription.Agrees (s.ascriptions around) (t.demands expected p)
  | .expr _ _, _, _, _, _, _, _, h, _, _, _ => by
    cases binds_of_ok h with
    | expr _ => exact .nil
  | .block _ body, _, _, _, _, _, _, h, hread, hp, hreturns => by
    cases binds_of_ok h with
    | block inside =>
      have htypes := bindAll_normal inside hread hp.push
      exact bindAll_agrees body inside hread hp.push (hreturns.all htypes)
  | .varDecl _ _ _ type value, _, _, _, _, _, _, h, hread, hp, _ => by
    cases binds_of_ok h with
    | @varDecl _ _ _ _ _ _ _ declared _ declares initial =>
      obtain ⟨-, htyped⟩ := (Expr.bindOption_typed value fun v hv =>
        hread.ordinary (Option.mem_toList.2 hv)).of_ok initial
      cases value with
      | none =>
        cases initial
        exact .nil
      | some v =>
        obtain ⟨e, _, hvalue, hbound⟩ := ok_of_bind initial
        cases hbound
        have hnormal := (htyped e rfl).every closed_isNormal hp.every
        refine .cons ⟨⟨e.type, variableType declared (some e), ?_⟩, fun hinferred => ?_⟩ .nil
        · rw [← Expr.span_of_bind hvalue]
        · exact variableType_takes (typeOrAny_takesAny hp declares hinferred) hnormal
  | .ifElse _ condition onTrue onFalse, _, _, _, _, _, _, h, hread, hp, hreturns => by
    cases binds_of_ok h with
    | ifElse test first second =>
      obtain ⟨hcondition, hbranches⟩ := hread.uncons
      obtain ⟨hreadTrue, hreadFalse⟩ := hbranches.split
      obtain ⟨hnoted, -⟩ := (condition.bind_typed hcondition).of_ok test
      have htrue := bind_sound closed_isNormal onTrue first hreadTrue (hp.noted hnoted)
        fun d _ => d.admitted_isNormal
      have hfalse := bindOption_sound closed_isNormal onFalse second hreadFalse htrue.fits
        fun d _ => d.admitted_isNormal
      have htypes := BoundStmt.every_returnsBranches htrue.types hfalse.2.2
      have hfirst := bind_agrees onTrue first hreadTrue (hp.noted hnoted)
        (hreturns.part htypes List.mem_cons_self)
      have hsecond := bindOption_agrees onFalse second hreadFalse htrue.fits
        fun u hu => hreturns.part htypes (List.mem_cons_of_mem _
          (List.mem_map_of_mem (Option.mem_toList.2 hu)))
      exact List.rel_append hfirst hsecond
  | .whileLoop _ condition body, _, _, _, _, _, _, h, hread, hp, hreturns => by
    cases binds_of_ok h with
    | whileLoop test inside =>
      obtain ⟨hcondition, hread⟩ := hread.uncons
      obtain ⟨hnoted, -⟩ := (condition.bind_typed hcondition).of_ok test
      have hbody := bind_agrees body inside hread (hp.noted hnoted) hreturns
      exact hbody
  | .forIn _ name iterable _ body, _, _, _, _, _, _, h, hread, hp, hreturns => by
    cases binds_of_ok h with
    | forIn iterated inside =>
      obtain ⟨hiterable, hread⟩ := hread.uncons
      obtain ⟨hnoted, htyped⟩ := (iterable.bind_typed hiterable).of_ok iterated
      have helement := closed_isNormal.iterationType (htyped.every closed_isNormal hp.every)
      have hinside := (hp.noted hnoted).push.define .loopVariable rfl helement name
      have htypes := bindAll_normal inside hread hinside
      exact bindAll_agrees body inside hread hinside (hreturns.all htypes)
  | .fnDecl f, _, _, _, _, _, _, h, hread, hp, _ => by
    cases binds_of_ok h with
    | @fnDecl _ _ _ _ g signs inside =>
      obtain ⟨hparams, hresult, -⟩ := hread.fn
      obtain ⟨-, hevery⟩ :=
        (bindSignature_every closed_isNormal hp.every hparams hresult).of_ok signs
      have hinside := hp.define .function rfl (closed_isNormal.fn hevery.params hevery.result) f.name
      have hname : g.name = f.name := by
        obtain ⟨_, _, _, _, rfl⟩ := bindFn_ok inside
        rfl
      have hbody := bindFn_agrees f inside hread hevery hinside
      rwa [← hname] at hbody
  | .ret _ value, _, _, _, _, _, _, h, hread, hp, hreturns => by
    cases binds_of_ok h with
    | ret result =>
      obtain ⟨-, htyped⟩ := (Expr.bindOption_typed value fun v hv =>
        hread.ordinary (Option.mem_toList.2 hv)).of_ok result
      exact hreturns.ret (fun e he => (htyped e he).every closed_isNormal hp.every)
        (Expr.span_of_bindOption result) _ _
  | .jump _ _, _, _, _, _, _, _, h, _, _, _ => by
    cases h
    exact .nil
  | .classDecl _ name _ _ fields methods, _, _, _, p, _, _, h, hread, hp, _ => by
    cases binds_of_ok h with
    | @classDecl _ _ _ _ _ _ _ _ _ _ super mixed own signatures boundFields boundMethods starts
        extended mixes fieldTypes methodTypes initial inside =>
      subst starts
      let final := ClassDef.retype ⟨name, own ++ signatures, mixed, super⟩ boundFields.length
        boundMethods
      obtain ⟨hreadFields, hreadMethods⟩ := hread.split
      have hp₁ := hp.declareType (.refl _) (closed_isNormal.singular name) name
      obtain ⟨-, -, hinside⟩ := fits_inClass closed_isNormal extended mixes fieldTypes methodTypes
        initial hreadFields.types hreadMethods hp₁
        (DeclaredClass.admitted_isNormal ⟨final, boundFields.length⟩)
      obtain ⟨hnoted, -⟩ :=
        (bindFields_typed fields _ fun _ => hreadFields.ordinary).of_ok initial
      have hmethods := bindMethods_agrees methods inside hreadMethods (hinside.noted hnoted)
      have hplace : (p.declareType name (.singular name)).declareClass final =
          p.declareClass final := Place.declareClass_declareType p final _
      rwa [hplace] at hmethods
  | .typeDecl _ _ _, _, _, _, _, _, _, h, _, _, _ => by
    cases binds_of_ok h with
    | typeDecl _ _ => exact .nil
termination_by structural s => s

theorem bindAll_agrees : ∀ (ss : List Stmt) {b b' : Binder} {ts : List BoundStmt} {p : Place}
    {around : Option (Option TypeRef)} {expected : Option Ty}, bindAll ss b = .ok ts b' →
      WellRead IsNormal (rootsAll ss) (refsAll ss) → p.Fits IsNormal b →
      (∀ t ∈ ts, Anticipates t.returns around expected) →
      List.Forall₂ Ascription.Agrees (ascriptionsAll ss around) (BoundStmt.demandsAll ts expected p)
  | [], _, _, _, _, _, _, h, _, _, _ => by
    cases h
    exact .nil
  | s :: ss, _, _, _, _, _, _, h, hread, hp, hreturns => by
    obtain ⟨t, ts, b₁, rfl, ht, hts⟩ := bindAll_cons h
    obtain ⟨hreadFirst, hreadRest⟩ := hread.split
    rw [List.forall_mem_cons] at hreturns
    have hfirst := bind_agrees s ht hreadFirst hp hreturns.1
    have hsound := bind_sound closed_isNormal s ht hreadFirst hp fun d _ => d.admitted_isNormal
    have hrest := bindAll_agrees ss hts hreadRest hsound.fits hreturns.2
    exact List.rel_append hfirst hrest
termination_by structural ss => ss

theorem bindOption_agrees : ∀ (s : Option Stmt) {b b' : Binder} {t : Option BoundStmt} {p : Place}
    {around : Option (Option TypeRef)} {expected : Option Ty}, bindOption s b = .ok t b' →
      WellRead IsNormal (rootsOption s) (refsOption s) → p.Fits IsNormal b →
      (∀ u ∈ t, Anticipates u.returns around expected) →
      List.Forall₂ Ascription.Agrees (ascriptionsOption s around) (BoundStmt.demandsOption t expected p)
  | none, _, _, _, _, _, _, h, _, _, _ => by
    cases h
    exact .nil
  | some s, _, _, _, _, _, _, h, hread, hp, hreturns => by
    obtain ⟨t, rfl, ht⟩ := bindOption_some h
    exact bind_agrees s ht hread hp (hreturns t rfl)
termination_by structural s => s

theorem bindFn_agrees : ∀ (f : FnDecl Stmt) {signature : Signature Ty} {b b' : Binder}
    {g : BoundFn BoundStmt} {p : Place}, bindFn signature f b = .ok g b' →
      WellRead IsNormal (rootsFn f) (refsFn f) → signature.Every IsNormal → p.Fits IsNormal b →
      List.Forall₂ Ascription.Agrees (ascriptionsFn f) (BoundStmt.demandsFn g p)
  | ⟨_, _, result, body, _, _⟩, _, _, _, _, _, h, hread, hevery, hp => by
    obtain ⟨ts, b₁, hbody, rfl, rfl⟩ := bindFn_ok h
    obtain ⟨-, -, hread⟩ := hread.fn
    have hinside := hp.enterFunction hevery.params
    have htypes := bindAll_normal hbody hread hinside
    exact bindAll_agrees body hbody hread hinside fun t ht => .body htypes result _ ht
termination_by structural f => f

theorem bindMethods_agrees : ∀ (ms : List (MethodDecl Stmt)) {b b' : Binder}
    {gs : List (BoundFn BoundStmt)} {p : Place}, bindMethods ms b = .ok gs b' →
      WellRead IsNormal (rootsMethods ms) (refsMethods ms) → p.Fits IsNormal b →
      List.Forall₂ Ascription.Agrees (ascriptionsMethods ms) (BoundStmt.demandsFns gs p)
  | [], _, _, _, _, h, _, _ => by
    cases h
    exact .nil
  | ⟨_, function⟩ :: ms, _, _, _, _, h, hread, hp => by
    obtain ⟨signature, g, gs, b₁, rfl, hsignature, hg, hgs⟩ := bindMethods_cons h
    obtain ⟨hfunction, hreadRest⟩ := hread.split
    obtain ⟨-, hevery⟩ := (bindSignature_every closed_isNormal hp.every hfunction.fn.1
      hfunction.fn.2.1).of_ok hsignature
    obtain ⟨hnoted, -⟩ := (Yields.of_onlyNotes (bindFn_onlyNotes function signature)).of_ok hg
    have hfirst := bindFn_agrees function hg hfunction hevery hp
    have hrest := bindMethods_agrees ms hgs hreadRest (hp.noted hnoted)
    exact List.rel_append hfirst hrest
termination_by structural ms => ms

end

end Stmt

end ScriptCheck
