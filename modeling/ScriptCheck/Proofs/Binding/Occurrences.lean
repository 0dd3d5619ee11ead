import ScriptCheck.Proofs.Binding.Places
import ScriptCheck.Proofs.Binding.Steps
import ScriptCheck.Proofs.Ty.Normal

/-!
Every expression of a bound program was bound at its place: by a binder that fits the place, so that the
expression follows the rules for that binder. The statements of a program are followed in the order in
which they are bound, with the place and the binder side by side.
-/

namespace ScriptCheck

open Ty (Closed)
open Binder Binding

variable {P : Ty → Prop}

/-! ### Declared classes -/

/-- In a class declaration the fields can be written to unless they are constant, and no method can. -/
structure DeclaredClass.Lawful (d : DeclaredClass) : Prop where
  fields : ∀ m ∈ d.fields, m.writable = !m.modifiers.isConst
  methods : ∀ m ∈ d.methods, m.writable = false

/-- The condition holds of the declared class, also while its methods are bound. -/
def DeclaredClass.Admitted (P : Ty → Prop) (d : DeclaredClass) : Prop :=
  d.Lawful → ∀ c : ClassDef Ty, c.Alike d.definition → P (.classType c)

/-- Classes are in normal form whatever they declare. -/
theorem DeclaredClass.admitted_isNormal (d : DeclaredClass) : d.Admitted Ty.IsNormal :=
  fun _ _ _ => trivial

/-- What stands in the second of two related lists has a partner in the first. -/
theorem exists_of_forall₂_right {α β : Type} {R : α → β → Prop} {as : List α} {bs : List β}
    (h : List.Forall₂ R as bs) {b : β} (hb : b ∈ bs) : ∃ a ∈ as, R a b := by
  induction h with
  | nil => cases hb
  | cons hab _ ih =>
    rcases List.mem_cons.1 hb with rfl | hb
    · exact ⟨_, List.mem_cons_self, hab⟩
    · obtain ⟨a, ha, hrel⟩ := ih hb
      exact ⟨a, List.mem_cons_of_mem _ ha, hrel⟩

theorem retypeFirst_every {ms : List (Member Ty)} (hms : ∀ m ∈ ms, m.type.Every P) (name : String)
    {t : Ty} (ht : t.Every P) : ∀ m ∈ retypeFirst name t ms, m.type.Every P := by
  induction ms with
  | nil => nofun
  | cons m ms ih =>
    rw [List.forall_mem_cons] at hms
    unfold retypeFirst
    split
    · exact List.forall_mem_cons.2 ⟨ht, hms.2⟩
    · exact List.forall_mem_cons.2 ⟨hms.1, ih hms.2⟩

theorem retypeMethods_every (hP : Closed P) {ms : List (Member Ty)} (hms : ∀ m ∈ ms, m.type.Every P)
    (count : Nat) {fs : List (BoundFn BoundStmt)} (hfs : ∀ f ∈ fs, f.signature.Every P) :
    ∀ m ∈ retypeMethods count fs ms, m.type.Every P := by
  suffices hfold : ∀ ms : List (Member Ty), (∀ m ∈ ms, m.type.Every P) →
      ∀ m ∈ fs.foldl (fun ms f => retypeFirst f.name (.function f.signature) ms) ms,
        m.type.Every P from
    List.forall_mem_append.2 ⟨fun m hm => hms m (List.mem_of_mem_take hm),
      hfold _ fun m hm => hms m (List.mem_of_mem_drop hm)⟩
  induction fs with
  | nil => exact fun _ h => h
  | cons f fs ih =>
    rw [List.forall_mem_cons] at hfs
    intro ms h
    have hf : (Ty.function f.signature).Every P :=
      .function (hP.function _) hfs.1.params hfs.1.result
    exact ih hfs.2 _ (retypeFirst_every h f.name hf)

/-- A class before its methods are bound: its first members are fields and the others methods, and its
types satisfy the condition. -/
structure ClassDef.Begun (P : Ty → Prop) (fieldCount : Nat) (c : ClassDef Ty) : Prop where
  fields : ∀ m ∈ c.members.take fieldCount, m.writable = !m.modifiers.isConst
  methods : ∀ m ∈ c.members.drop fieldCount, m.type.isFunction = true ∧ m.writable = false
  members : ∀ m ∈ c.members, m.type.Every P
  mixins : ∀ t ∈ c.mixins, t.Every P
  superclass : ∀ t ∈ c.superclass, t.Every P

namespace ClassDef.Begun

variable {fieldCount : Nat} {c : ClassDef Ty} (h : c.Begun P fieldCount)
include h

theorem alike (fs : List (BoundFn BoundStmt)) : c.Alike (c.retype fieldCount fs) :=
  ⟨rfl, retypeMethods_alike _ _ fun m hm => (h.methods m hm).1, rfl, rfl⟩

/-- What can be written to is the same in the end. -/
theorem lawful (fs : List (BoundFn BoundStmt)) :
    DeclaredClass.Lawful ⟨c.retype fieldCount fs, fieldCount⟩ := by
  have hmembers := (h.alike fs).members
  refine ⟨fun n hn => ?_, fun n hn => ?_⟩
  · obtain ⟨m, hm, halike⟩ := exists_of_forall₂_right (List.forall₂_take fieldCount hmembers) hn
    rw [← halike.writable, ← halike.modifiers]
    exact h.fields m hm
  · obtain ⟨m, hm, halike⟩ := exists_of_forall₂_right (List.forall₂_drop fieldCount hmembers) hn
    rw [← halike.writable]
    exact (h.methods m hm).2

theorem every (hc : P (.classType c)) : (Ty.classType c).Every P :=
  .classType hc h.members h.mixins h.superclass

theorem retype_every (hP : Closed P) {fs : List (BoundFn BoundStmt)}
    (hfs : ∀ f ∈ fs, f.signature.Every P) (hc : P (.classType (c.retype fieldCount fs))) :
    (Ty.classType (c.retype fieldCount fs)).Every P :=
  .classType hc (retypeMethods_every hP h.members fieldCount hfs) h.mixins h.superclass

end ClassDef.Begun

/-- Fields and methods make a class. -/
theorem ClassDef.begun {name : String} {own signatures : List (Member Ty)} {mixed : List Ty}
    {super : Option Ty} (hown : ∀ m ∈ own, m.type.Every P ∧ m.writable = !m.modifiers.isConst)
    (hsignatures : ∀ m ∈ signatures,
      m.type.Every P ∧ m.type.isFunction = true ∧ m.writable = false)
    (hmixed : ∀ t ∈ mixed, t.Every P) (hsuper : ∀ t ∈ super, t.Every P) :
    (⟨name, own ++ signatures, mixed, super⟩ : ClassDef Ty).Begun P own.length where
  fields := by
    rw [List.take_left]
    exact fun m hm => (hown m hm).2
  methods := by
    rw [List.drop_left]
    exact fun m hm => (hsignatures m hm).2
  members := List.forall_mem_append.2
    ⟨fun m hm => (hown m hm).1, fun m hm => (hsignatures m hm).1⟩
  mixins := hmixed
  superclass := hsuper

/-! ### Declaring again -/

namespace Place

theorem declare_declare (p : Place) (name : String) (kind kind' : Kind) :
    (p.declare name kind).declare name kind' = p.declare name kind' := by
  unfold declare
  rw [ScopeStack.insert_insert]

theorem declareType_declareType (p : Place) (name : String) (t u : Ty) :
    (p.declareType name t).declareType name u = p.declareType name u := by
  unfold declareType Registry.declare
  rw [ScopeStack.insert_insert]

theorem declareClass_declareType (p : Place) (c : ClassDef Ty) (t : Ty) :
    (p.declareType c.name t).declareClass c = p.declareClass c := by
  unfold declareClass
  rw [declareType_declareType]

theorem declareClass_declareClass (p : Place) (c : ClassDef Ty) :
    (p.declareClass c).declareClass c = p.declareClass c := by
  have hcomm : ∀ (q : Place) (kind : Kind) (t : Ty),
      (q.declare c.name kind).declareType c.name t = (q.declareType c.name t).declare c.name kind :=
    fun _ _ _ => rfl
  unfold declareClass
  rw [hcomm, declare_declare, declareType_declareType]

end Place

/-! ### Types in statements -/

namespace BoundStmt

mutual

/-- The types of a statement and of all that is in it. -/
def types : BoundStmt → List Ty
  | .expr i e => i.returns.toList ++ e.allTypes
  | .block i body => i.returns.toList ++ typesAll body
  | .varDecl i _ type value _ =>
    i.returns.toList ++ type :: value.toList.flatMap BoundExpr.allTypes
  | .ifElse i condition onTrue onFalse =>
    i.returns.toList ++ (condition.allTypes ++ (types onTrue ++ typesOption onFalse))
  | .whileLoop i condition body => i.returns.toList ++ (condition.allTypes ++ types body)
  | .forIn i _ element iterable body =>
    i.returns.toList ++ element :: (iterable.allTypes ++ typesAll body)
  | .fnDecl i f => i.returns.toList ++ typesFn f
  | .ret i value => i.returns.toList ++ value.toList.flatMap BoundExpr.allTypes
  | .jump i _ => i.returns.toList
  | .classDecl i c fields methods => i.returns.toList ++ .classType c ::
    (fields.flatMap (fun f => f.type :: f.value.toList.flatMap BoundExpr.allTypes) ++
      typesFns methods)
  | .typeDecl i _ type => i.returns.toList ++ [type]
termination_by structural s => s

/-- The types of statements. -/
def typesAll : List BoundStmt → List Ty
  | [] => []
  | s :: ss => types s ++ typesAll ss
termination_by structural ss => ss

/-- The types of an optional statement. -/
def typesOption : Option BoundStmt → List Ty
  | none => []
  | some s => types s
termination_by structural s => s

/-- The types of a function: its own and those of its body. -/
def typesFn : BoundFn BoundStmt → List Ty
  | ⟨_, signature, body⟩ => .function signature :: typesAll body
termination_by structural f => f

/-- The types of the methods of a class. -/
def typesFns : List (BoundFn BoundStmt) → List Ty
  | [] => []
  | f :: fs => typesFn f ++ typesFns fs
termination_by structural fs => fs

end

theorem returns_subset_types (t : BoundStmt) : t.returns.toList ⊆ t.types := by
  cases t with
  | jump _ _ => exact List.Subset.refl _
  | _ => exact List.subset_append_left ..

end BoundStmt

/-! ### Statements -/

/-- The expression follows the rules for a binder that fits its place. -/
def Occurrence.Sound (P : Ty → Prop) (x : Occurrence) : Prop :=
  ∃ b, x.place.Fits P b ∧ x.expr.Typed b

/-- What is known of a statement that was bound at a place. -/
structure BoundStmt.SoundAt (P : Ty → Prop) (t : BoundStmt) (p : Place) (b : Binder) : Prop where
  fits : (t.after p).Fits P b
  roots : ∀ x ∈ t.roots p, x.Sound P
  types : ∀ u ∈ t.types, u.Every P

/-- What is known of statements that were bound at a place. -/
structure BoundStmt.AllSoundAt (P : Ty → Prop) (ts : List BoundStmt) (p : Place) (b : Binder) :
    Prop where
  fits : (BoundStmt.afterAll ts p).Fits P b
  roots : ∀ x ∈ BoundStmt.rootsAll ts p, x.Sound P
  types : ∀ u ∈ BoundStmt.typesAll ts, u.Every P

theorem BoundStmt.every_returns {t : BoundStmt} (h : ∀ u ∈ t.types, u.Every P) :
    ∀ u ∈ t.returns, u.Every P :=
  fun u hu => h u (t.returns_subset_types (Option.mem_toList.2 hu))

theorem BoundStmt.every_returnsAll {ts : List BoundStmt} (h : ∀ u ∈ typesAll ts, u.Every P) :
    ∀ t ∈ ts, ∀ u ∈ t.returns, u.Every P := by
  induction ts with
  | nil => nofun
  | cons t ts ih =>
    obtain ⟨ht, hts⟩ := List.forall_mem_append.1 h
    exact List.forall_mem_cons.2 ⟨every_returns ht, ih hts⟩

theorem BoundStmt.every_returnsBranches {t : BoundStmt} {o : Option BoundStmt}
    (ht : ∀ u ∈ t.types, u.Every P) (ho : ∀ u ∈ typesOption o, u.Every P) :
    ∀ r ∈ t.returns :: o.toList.map (·.returns), ∀ u ∈ r, u.Every P := by
  refine List.forall_mem_cons.2 ⟨every_returns ht, fun r hr => ?_⟩
  obtain ⟨v, hv, rfl⟩ := List.mem_map.1 hr
  rw [Option.mem_toList.1 hv] at ho
  exact every_returns ho

theorem Place.Fits.optional {p : Place} {b : Binder} (hp : p.Fits P b) {e : Option BoundExpr}
    (he : ∀ t ∈ e, t.Typed b) : ∀ x ∈ BoundStmt.optional e p, x.Sound P := by
  intro x hx
  obtain ⟨t, ht, rfl⟩ := List.mem_map.1 hx
  exact ⟨b, hp, he t (Option.mem_toList.1 ht)⟩

/-- The types of the fields are those of the first members. -/
theorem bindFields_typed {base : Binder} : ∀ (fs : List FieldDecl) (ms : List (Member Ty)),
    (∀ e ∈ fs.flatMap (·.value.toList), ∀ x ∈ e.subterms, x.IsOrdinary) →
    base.Yields (bindFields fs ms) fun ds =>
      ∀ d ∈ ds, (∀ e ∈ d.value, e.Typed base) ∧ ∃ m ∈ ms, d.type = m.type
  | [], _, _ => .pure nofun
  | _ :: _, [], _ => .pure nofun
  | f :: fs, m :: ms, h => by
    obtain ⟨hf, hfs⟩ := List.forall_mem_append.1 h
    refine .bind (Expr.bindOption_typed f.value fun v hv => hf v (Option.mem_toList.2 hv)) fun _ he => ?_
    refine .bind (bindFields_typed fs ms hfs) fun ds hds => .pure ?_
    refine List.forall_mem_cons.2 ⟨⟨he, m, List.mem_cons_self, rfl⟩, fun d hd => ?_⟩
    obtain ⟨htyped, n, hn, htype⟩ := hds d hd
    exact ⟨htyped, n, List.mem_cons_of_mem _ hn, htype⟩

theorem Ty.Closed.joinReturns_all (hP : Closed P) {ts : List BoundStmt}
    (h : ∀ t ∈ ts, ∀ u ∈ t.returns, u.Every P) :
    ∀ u ∈ ScriptCheck.joinReturns (ts.map (·.returns)), u.Every P :=
  hP.joinReturns (List.forall_mem_map.2 h)

theorem Ty.Closed.resultType (hP : Closed P) (written : Option TypeRef) {signature : Signature Ty}
    (hsignature : signature.Every P) {body : List BoundStmt}
    (h : ∀ t ∈ body, ∀ u ∈ t.returns, u.Every P) :
    (ScriptCheck.resultType written signature body).Every P := by
  cases written with
  | some _ => exact hsignature.result
  | none =>
    have hjoined := hP.joinReturns_all h
    unfold ScriptCheck.resultType
    dsimp only
    cases hreturns : ScriptCheck.joinReturns (body.map (·.returns)) with
    | none => exact hP.singular _
    | some t => exact hjoined t hreturns

theorem Ty.Closed.returnType (hP : Closed P) {e : Option BoundExpr} (h : ∀ t ∈ e, t.type.Every P) :
    (ScriptCheck.returnType e).Every P := by
  cases e with
  | none => exact hP.singular _
  | some e => exact hP.widened (h e rfl)

namespace Stmt

/-- A scope that was opened for statements is closed behind them. -/
theorem noted_of_block {body : List Stmt} {b b₁ b₂ : Binder} {ts : List BoundStmt}
    (henter : b.push.Kept b₁) (h : bindAll body b₁ = .ok ts b₂) : b.Noted b₂.pop :=
  ⟨_, (henter.trans ((bindAll_kept body _).of_ok (.refl _) h)).inScope⟩

/-- In the body of a class that was read the binder fits the place: as far as the place is concerned, the
class has the final types of its methods from the start. -/
theorem fits_inClass (hP : Closed P) {name : String} {superclass : Option Name} {mixins : List Name}
    {fields : List FieldDecl} {methods : List (MethodDecl Stmt)} {b b₁ : Binder} {p : Place}
    {super : Option Ty} {mixed : List Ty} {own signatures : List (Member Ty)}
    {boundFields : List BoundField} {gs : List (BoundFn BoundStmt)}
    (extended : bindSuperclass superclass b = .ok super b) (mixes : bindMixins mixins b = .ok mixed b)
    (fieldTypes : fieldMembers fields b = .ok own b)
    (methodTypes : methodMembers methods b = .ok signatures b)
    (initial : bindFields fields (own ++ signatures)
      (b.inClass ⟨name, own ++ signatures, mixed, super⟩) = .ok boundFields b₁)
    (hfields : ∀ r ∈ fields.map (·.type), r.Sound P)
    (hmethods : WellRead P (rootsMethods methods) (refsMethods methods)) (hp : p.Fits P b)
    (hadmitted : DeclaredClass.Admitted P
      ⟨ClassDef.retype ⟨name, own ++ signatures, mixed, super⟩ boundFields.length gs,
        boundFields.length⟩) :
    let first : ClassDef Ty := ⟨name, own ++ signatures, mixed, super⟩
    let final := first.retype boundFields.length gs
    first.Begun P boundFields.length ∧ (p.declareClass final).Fits P (b.declareClass first) ∧
      ((p.declareClass final).enterClass ⟨final, boundFields.length⟩).Fits P (b.inClass first) := by
  intro first final
  obtain ⟨-, hsuper⟩ := (bindSuperclass_every hp.every superclass).of_ok extended
  obtain ⟨-, hmixed⟩ := (bindMixins_every hp.every mixins).of_ok mixes
  obtain ⟨-, hown⟩ := (fieldMembers_every hP hp.every fields
    fun f hf => hfields _ (List.mem_map_of_mem hf)).of_ok fieldTypes
  obtain ⟨-, hsignatures⟩ := (methodMembers_every hP hp.every methods fun m hm =>
    ⟨(hmethods.methods m hm).fn.1, (hmethods.methods m hm).fn.2.1⟩).of_ok methodTypes
  have hbegun : first.Begun P boundFields.length := by
    rw [bindFields_length fields _ initial (fields_le_members fieldTypes _),
      ← fieldMembers_length fields fieldTypes]
    exact ClassDef.begun hown hsignatures hmixed hsuper
  have halike : first.Alike final := hbegun.alike gs
  have hgood := hadmitted (hbegun.lawful gs)
  have hfirst := hbegun.every (hgood first halike)
  have hdeclared := hp.declareClass halike hfirst
  exact ⟨hbegun, hdeclared, hdeclared.enterClass (d := ⟨final, boundFields.length⟩)
    (hgood final (.refl final)) halike.name hfirst⟩

mutual

/-- A statement that is bound at a place by a binder that fits it leads to a place that the binder fits
again, its expressions were bound at their places, and its types satisfy the condition. -/
theorem bind_sound (hP : Closed P) : ∀ (s : Stmt) {b b' : Binder} {t : BoundStmt} {p : Place},
    s.bind b = .ok t b' → WellRead P s.roots s.refs → p.Fits P b →
      (∀ d ∈ t.classes, d.Admitted P) → t.SoundAt P p b'
  | .expr _ e, b, _, _, _, h, hread, hp, _ => by
    cases binds_of_ok h with
    | expr value =>
      obtain ⟨hnoted, htyped⟩ := (e.bind_typed (hread.ordinary List.mem_cons_self)).of_ok value
      exact ⟨hp.noted hnoted, List.forall_mem_singleton.2 ⟨b, hp, htyped⟩,
        htyped.every_allTypes hP hp.every⟩
  | .block _ body, _, _, _, _, h, hread, hp, hclasses => by
    cases binds_of_ok h with
    | block inside =>
      have hsound := bindAll_sound hP body inside hread hp.push hclasses
      have hreturns := hP.joinReturns_all (BoundStmt.every_returnsAll hsound.types)
      exact ⟨hp.noted (noted_of_block (.refl _) inside), hsound.roots,
        List.forall_mem_append.2 ⟨fun u hu => hreturns u (Option.mem_toList.1 hu), hsound.types⟩⟩
  | .varDecl _ name isConst type value, _, _, _, _, h, hread, hp, _ => by
    cases binds_of_ok h with
    | varDecl declares initial =>
      obtain ⟨-, hdeclared⟩ := (typeOrAny_every hP hp.every type fun r hr =>
        hread.types r (Option.mem_toList.2 hr)).of_ok declares
      obtain ⟨hnoted, htyped⟩ := (Expr.bindOption_typed value fun v hv =>
        hread.ordinary (Option.mem_toList.2 hv)).of_ok initial
      have hvariable := hP.variableType hdeclared fun e he => (htyped e he).every hP hp.every
      refine ⟨(hp.noted hnoted).define _ ?_ hvariable name, hp.optional htyped,
        List.forall_mem_cons.2 ⟨hvariable, BoundExpr.every_optional hP hp.every htyped⟩⟩
      cases isConst <;> rfl
  | .ifElse _ condition onTrue onFalse, b, _, _, _, h, hread, hp, hclasses => by
    cases binds_of_ok h with
    | ifElse test first second =>
      obtain ⟨hcondition, hbranches⟩ := hread.uncons
      obtain ⟨hreadTrue, hreadFalse⟩ := hbranches.split
      obtain ⟨hnoted, htyped⟩ := (condition.bind_typed hcondition).of_ok test
      have hall := List.forall_mem_append.1 hclasses
      have htrue := bind_sound hP onTrue first hreadTrue (hp.noted hnoted) hall.1
      have hfalse := bindOption_sound hP onFalse second hreadFalse htrue.fits hall.2
      refine ⟨hfalse.1, ?_, List.forall_mem_append.2 ⟨fun u hu => ?_, List.forall_mem_append.2
        ⟨htyped.every_allTypes hP hp.every, List.forall_mem_append.2 ⟨htrue.types, hfalse.2.2⟩⟩⟩⟩
      · exact List.forall_mem_cons.2
          ⟨⟨b, hp, htyped⟩, List.forall_mem_append.2 ⟨htrue.roots, hfalse.2.1⟩⟩
      · have hreturns := BoundStmt.every_returnsBranches htrue.types hfalse.2.2
        exact hP.joinReturns hreturns u (Option.mem_toList.1 hu)
  | .whileLoop _ condition body, b, _, _, _, h, hread, hp, hclasses => by
    cases binds_of_ok h with
    | whileLoop test inside =>
      obtain ⟨hcondition, hread⟩ := hread.uncons
      obtain ⟨hnoted, htyped⟩ := (condition.bind_typed hcondition).of_ok test
      have hbody := bind_sound hP body inside hread (hp.noted hnoted) hclasses
      have hreturns := BoundStmt.every_returns hbody.types
      exact ⟨hbody.fits, List.forall_mem_cons.2 ⟨⟨b, hp, htyped⟩, hbody.roots⟩,
        List.forall_mem_append.2 ⟨fun u hu => hreturns u (Option.mem_toList.1 hu),
          List.forall_mem_append.2 ⟨htyped.every_allTypes hP hp.every, hbody.types⟩⟩⟩
  | .forIn _ name iterable _ body, b, _, _, _, h, hread, hp, hclasses => by
    cases binds_of_ok h with
    | @forIn _ _ _ _ _ _ _ _ e _ iterated inside =>
      obtain ⟨hiterable, hread⟩ := hread.uncons
      obtain ⟨hnoted, htyped⟩ := (iterable.bind_typed hiterable).of_ok iterated
      have helement := hP.iterationType (htyped.every hP hp.every)
      have hsound := bindAll_sound hP body inside hread
        ((hp.noted hnoted).push.define .loopVariable rfl helement name) hclasses
      have hreturns := hP.joinReturns_all (BoundStmt.every_returnsAll hsound.types)
      have hclosed := noted_of_block ((Kept.refl _).define name (iterationType e.type) true) inside
      exact ⟨(hp.noted hnoted).noted hclosed,
        List.forall_mem_cons.2 ⟨⟨b, hp, htyped⟩, hsound.roots⟩,
        List.forall_mem_append.2 ⟨fun u hu => hreturns u (Option.mem_toList.1 hu),
          List.forall_mem_cons.2 ⟨helement, List.forall_mem_append.2
            ⟨htyped.every_allTypes hP hp.every, hsound.types⟩⟩⟩⟩
  | .fnDecl f, _, _, _, p, h, hread, hp, hclasses => by
    cases binds_of_ok h with
    | @fnDecl _ _ b₁ signature g signs inside =>
      obtain ⟨hparams, hresult, -⟩ := hread.fn
      obtain ⟨-, hevery⟩ := (bindSignature_every hP hp.every hparams hresult).of_ok signs
      have hp₁ := hp.define .function rfl (hP.fn hevery.params hevery.result) f.name
      obtain ⟨hnoted, -⟩ := (Yields.of_onlyNotes (bindFn_onlyNotes f signature)).of_ok inside
      obtain ⟨hroots, hfinal, htypes, hname⟩ :=
        bindFn_sound hP f inside hread hevery hp₁ hclasses
      have hp₂ : (p.declare f.name .function).Fits P
          (if f.result.isNone then b₁.defineConst f.name (.function g.signature) else b₁) := by
        split
        · have hagain := (hp₁.noted hnoted).define .function rfl
            (hP.fn hfinal.params hfinal.result) f.name
          rwa [Place.declare_declare] at hagain
        · exact hp₁.noted hnoted
      rw [← hname] at hroots
      refine ⟨?_, hroots, htypes⟩
      rw [BoundStmt.after, hname]
      exact hp₂
  | .ret _ value, _, _, _, _, h, hread, hp, _ => by
    cases binds_of_ok h with
    | ret result =>
      obtain ⟨hnoted, htyped⟩ := (Expr.bindOption_typed value fun v hv =>
        hread.ordinary (Option.mem_toList.2 hv)).of_ok result
      exact ⟨hp.noted hnoted, hp.optional htyped, List.forall_mem_cons.2
        ⟨hP.returnType fun e he => (htyped e he).every hP hp.every,
          BoundExpr.every_optional hP hp.every htyped⟩⟩
  | .jump _ _, _, _, _, _, h, _, hp, _ => by
    cases h
    exact ⟨hp, nofun, nofun⟩
  | .classDecl _ name _ _ fields methods, _, _, _, p, h, hread, hp, hclasses => by
    cases binds_of_ok h with
    | @classDecl _ _ _ _ _ _ _ _ b₁ _ super mixed own signatures boundFields boundMethods starts
        extended mixes fieldTypes methodTypes initial inside =>
      subst starts
      obtain ⟨hreadFields, hreadMethods⟩ := hread.split
      obtain ⟨hadmitted, hclasses⟩ := List.forall_mem_cons.1 hclasses
      have hp₁ := hp.declareType (.refl _) (hP.singular name) name
      obtain ⟨hbegun, hdeclared, hinside⟩ := fits_inClass hP extended mixes fieldTypes methodTypes
        initial hreadFields.types hreadMethods hp₁ hadmitted
      obtain ⟨hnotedFields, htyped⟩ :=
        (bindFields_typed fields _ fun _ => hreadFields.ordinary).of_ok initial
      obtain ⟨hnotedMethods, -⟩ :=
        (Yields.of_onlyNotes (bindMethods_onlyNotes methods)).of_ok inside
      obtain ⟨hroots, hsigned, htypes⟩ := bindMethods_sound hP methods inside hreadMethods
        (hinside.noted hnotedFields) hclasses
      let final := ClassDef.retype ⟨name, own ++ signatures, mixed, super⟩ boundFields.length
        boundMethods
      have hgood := hadmitted (hbegun.lawful boundMethods) final (.refl final)
      have hfinal := hbegun.retype_every hP hsigned hgood
      have hp₂ := (hdeclared.noted (hnotedFields.trans hnotedMethods).leaveClass).declareClass
        (.refl final) hfinal
      have hplace : (p.declareType name (.singular name)).declareClass final =
          p.declareClass final := Place.declareClass_declareType p final _
      rw [Place.declareClass_declareClass, hplace] at hp₂
      rw [hplace] at hinside hroots
      refine ⟨hp₂, List.forall_mem_append.2 ⟨fun x hx => ?_, hroots⟩,
        List.forall_mem_cons.2 ⟨hfinal, List.forall_mem_append.2 ⟨fun u hu => ?_, htypes⟩⟩⟩
      · obtain ⟨f, hf, hx⟩ := List.mem_flatMap.1 hx
        exact hinside.optional (htyped f hf).1 x hx
      · obtain ⟨f, hf, hu⟩ := List.mem_flatMap.1 hu
        obtain ⟨hvalue, m, hm, htype⟩ := htyped f hf
        rcases List.mem_cons.1 hu with rfl | hu
        · exact htype ▸ hbegun.members m hm
        · exact BoundExpr.every_optional hP hinside.every hvalue u hu
  | .typeDecl _ name ref, _, _, _, p, h, hread, hp, _ => by
    cases binds_of_ok h with
    | typeDecl starts type =>
      subst starts
      have hp₁ := hp.declareType (.refl _) (hP.singular name) name
      obtain ⟨-, hevery⟩ :=
        (typeOf_every hP hp₁.every (hread.types ref List.mem_cons_self)).of_ok type
      have hnamed := hP.nameInterface hevery name
      have hp₂ := hp₁.declareType (.refl _) hnamed name
      rw [Place.declareType_declareType] at hp₂
      exact ⟨hp₂, nofun, List.forall_mem_singleton.2 hnamed⟩
termination_by structural s => s

theorem bindAll_sound (hP : Closed P) : ∀ (ss : List Stmt) {b b' : Binder} {ts : List BoundStmt}
    {p : Place}, bindAll ss b = .ok ts b' → WellRead P (rootsAll ss) (refsAll ss) → p.Fits P b →
      (∀ d ∈ BoundStmt.classesAll ts, d.Admitted P) → BoundStmt.AllSoundAt P ts p b'
  | [], _, _, _, _, h, _, hp, _ => by
    cases h
    exact ⟨hp, nofun, nofun⟩
  | s :: ss, _, _, _, _, h, hread, hp, hclasses => by
    obtain ⟨t, ts, b₁, rfl, ht, hts⟩ := bindAll_cons h
    obtain ⟨hreadFirst, hreadRest⟩ := hread.split
    have hall := List.forall_mem_append.1 hclasses
    have hfirst := bind_sound hP s ht hreadFirst hp hall.1
    have hrest := bindAll_sound hP ss hts hreadRest hfirst.fits hall.2
    exact ⟨hrest.fits, List.forall_mem_append.2 ⟨hfirst.roots, hrest.roots⟩,
      List.forall_mem_append.2 ⟨hfirst.types, hrest.types⟩⟩
termination_by structural ss => ss

theorem bindOption_sound (hP : Closed P) : ∀ (s : Option Stmt) {b b' : Binder}
    {t : Option BoundStmt} {p : Place}, bindOption s b = .ok t b' →
      WellRead P (rootsOption s) (refsOption s) → p.Fits P b →
      (∀ d ∈ BoundStmt.classesOption t, d.Admitted P) →
      (BoundStmt.afterOption t p).Fits P b' ∧ (∀ x ∈ BoundStmt.rootsOption t p, x.Sound P) ∧
        ∀ u ∈ BoundStmt.typesOption t, u.Every P
  | none, _, _, _, _, h, _, hp, _ => by
    cases h
    exact ⟨hp, nofun, nofun⟩
  | some s, _, _, _, _, h, hread, hp, hclasses => by
    obtain ⟨t, rfl, ht⟩ := bindOption_some h
    have hsound := bind_sound hP s ht hread hp hclasses
    exact ⟨hsound.fits, hsound.roots, hsound.types⟩
termination_by structural s => s

theorem bindFn_sound (hP : Closed P) : ∀ (f : FnDecl Stmt) {signature : Signature Ty} {b b' : Binder}
    {g : BoundFn BoundStmt} {p : Place}, bindFn signature f b = .ok g b' →
      WellRead P (rootsFn f) (refsFn f) → signature.Every P → p.Fits P b →
      (∀ d ∈ BoundStmt.classesFn g, d.Admitted P) →
      (∀ x ∈ BoundStmt.rootsFn g p, x.Sound P) ∧ g.signature.Every P ∧
        (∀ u ∈ BoundStmt.typesFn g, u.Every P) ∧ g.name = f.name
  | ⟨name, params, result, body, _, _⟩, _, _, _, _, _, h, hread, hevery, hp, hclasses => by
    obtain ⟨ts, b₁, hbody, rfl, rfl⟩ := bindFn_ok h
    obtain ⟨-, -, hread⟩ := hread.fn
    have hsound := bindAll_sound hP body hbody hread (hp.enterFunction hevery.params) hclasses
    have hresult := hP.resultType result hevery (BoundStmt.every_returnsAll hsound.types)
    exact ⟨hsound.roots, ⟨hevery.params, hresult⟩,
      List.forall_mem_cons.2 ⟨hP.fn hevery.params hresult, hsound.types⟩, rfl⟩
termination_by structural f => f

theorem bindMethods_sound (hP : Closed P) : ∀ (ms : List (MethodDecl Stmt)) {b b' : Binder}
    {gs : List (BoundFn BoundStmt)} {p : Place}, bindMethods ms b = .ok gs b' →
      WellRead P (rootsMethods ms) (refsMethods ms) → p.Fits P b →
      (∀ d ∈ BoundStmt.classesFns gs, d.Admitted P) →
      (∀ x ∈ BoundStmt.rootsFns gs p, x.Sound P) ∧ (∀ g ∈ gs, g.signature.Every P) ∧
        ∀ u ∈ BoundStmt.typesFns gs, u.Every P
  | [], _, _, _, _, h, _, _, _ => by
    cases h
    exact ⟨nofun, nofun, nofun⟩
  | ⟨_, function⟩ :: ms, _, _, _, p, h, hread, hp, hclasses => by
    obtain ⟨signature, g, gs, b₁, rfl, hsignature, hg, hgs⟩ := bindMethods_cons h
    obtain ⟨hfunction, hreadRest⟩ := hread.split
    obtain ⟨-, hevery⟩ :=
      (bindSignature_every hP hp.every hfunction.fn.1 hfunction.fn.2.1).of_ok hsignature
    obtain ⟨hnoted, -⟩ := (Yields.of_onlyNotes (bindFn_onlyNotes function signature)).of_ok hg
    have hall := List.forall_mem_append.1 hclasses
    have hfirst := bindFn_sound hP function hg hfunction hevery hp hall.1
    have hrest := bindMethods_sound hP ms hgs hreadRest (hp.noted hnoted) hall.2
    exact ⟨List.forall_mem_append.2 ⟨hfirst.1, hrest.1⟩,
      List.forall_mem_cons.2 ⟨hfirst.2.1, hrest.2.1⟩,
      List.forall_mem_append.2 ⟨hfirst.2.2.1, hrest.2.2⟩⟩
termination_by structural ms => ms

end

end Stmt

end ScriptCheck
