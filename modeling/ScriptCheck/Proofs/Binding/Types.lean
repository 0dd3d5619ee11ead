import Mathlib.Tactic.FinCases
import ScriptCheck.Proofs.Binding.Typing
import ScriptCheck.Proofs.Ty.Every

/-!
Where the types of a program come from. Types are read off references, looked up among the names in
scope, found as members, or put together from the types of parts. If all types in scope satisfy a
condition that the operations on types keep, then so do the types that binding finds.
-/

namespace ScriptCheck

open Ty (Closed)

variable {P : Ty → Prop}

/-! ### Members -/

/-- Where a member was found: among the members of a class that satisfies the condition, or among the
properties of an interface that was mixed in. -/
inductive FoundMember.From (P : Ty → Prop) (name : String) : FoundMember → Prop
  | declared {c : ClassDef Ty} {m : Member Ty} (good : P (.classType c))
      (first : c.members.find? (·.name == name) = some m) : From P name ⟨m, c.name⟩
  | mixed {i : Interface Ty} {p : Property Ty} (first : i.property? name = some p) :
      From P name ⟨⟨p.name, p.type, .public, p.writable⟩, i.name.getD ""⟩

/-- What is found comes from a good class or from an interface, and its type is good. -/
def FindsGood (P : Ty → Prop) (name : String) (x : Option FoundMember) : Prop :=
  ∀ found, x = some found → found.From P name ∧ found.member.type.Every P

theorem Ty.interfaceMember?_good {t : Ty} {name : String} (h : t.Every P) :
    FindsGood P name (t.interfaceMember? name) := by
  intro found hfound
  cases h with
  | interface _ props _ =>
    obtain ⟨p, hp, rfl⟩ := Option.map_eq_some_iff.1 hfound
    exact ⟨.mixed hp, props p (List.mem_of_find?_eq_some hp)⟩
  | _ => cases hfound

theorem Ty.mixedMember?_good {ts : List Ty} {name : String} (hts : ∀ t ∈ ts, t.Every P)
    (h : ∀ t ∈ ts, FindsGood P name (t.classMember? name)) :
    FindsGood P name (mixedMember? name ts) := by
  induction ts with
  | nil => nofun
  | cons t ts ih =>
    rw [List.forall_mem_cons] at hts h
    intro found hfound
    rw [mixedMember?] at hfound
    split at hfound
    · rename_i m hm
      cases hfound
      rcases Option.or_eq_some_iff.1 hm with hclass | ⟨-, hinterface⟩
      · exact h.1 found hclass
      · exact interfaceMember?_good hts.1 found hinterface
    · exact ih hts.2 h.2 found hfound

theorem Ty.classMember?_good {t : Ty} {name : String} (h : t.Every P) :
    FindsGood P name (t.classMember? name) := by
  induction h with
  | @classType c here members mixins superclass _ ihmixins ihsuper =>
    obtain ⟨owner, own, mixed, super⟩ := c
    intro found hfound
    rw [classMember?] at hfound
    split at hfound
    · rename_i m hown
      cases hfound
      exact ⟨.declared here hown, members m (List.mem_of_find?_eq_some hown)⟩
    · split at hfound
      · rename_i inherited hsuper
        cases hfound
        cases super with
        | none => cases hsuper
        | some s => exact ihsuper s rfl found hsuper
      · exact mixedMember?_good mixins ihmixins found hfound
  | _ => nofun

/-- The type of the slot that is found satisfies the condition. -/
abbrev GoodSlot (P : Ty → Prop) (x : Except Failure Slot) : Prop :=
  Gives (fun _ => True) (fun slot => slot.type.Every P) x

namespace Ty.Closed

variable (hP : Closed P)
include hP

theorem slot_interface {i : Interface Ty} (h : (Ty.interface i).Every P) (key : MemberKey) :
    (i.slot key).type.Every P := by
  cases h with
  | interface _ props index =>
    have hindex : ∀ k t, i.indexType? k = some t → t.Every P := by
      intro k t ht
      obtain ⟨x, hx, rfl⟩ := Option.map_eq_some_iff.1 ht
      exact index x (List.mem_of_find?_eq_some hx)
    cases key with
    | name name =>
      unfold Interface.slot
      dsimp only
      cases hprop : i.property? name with
      | some p => exact props p (List.mem_of_find?_eq_some hprop)
      | none =>
        cases htype : i.indexType? .string with
        | some t => exact hindex _ t htype
        | none => exact hP.singular _
    | index k =>
      unfold Interface.slot
      dsimp only
      cases htype : i.indexType? k with
      | some t => exact hindex _ t htype
      | none => exact hP.singular _

theorem slot_class {c : ClassDef Ty} (h : (Ty.classType c).Every P) (classes : List String)
    (position : Position) (key : MemberKey) :
    GoodSlot P (c.slot classes position key) := by
  cases key with
  | index k => exact .ok (hP.singular _)
  | name name =>
    unfold ClassDef.slot
    dsimp only
    cases hfound : c.findMember? name with
    | none => exact .ok (hP.singular _)
    | some found =>
      exact .ite (.error trivial) (.ok (Ty.classMember?_good h found hfound).2)

end Ty.Closed

namespace Registry

variable {r : Registry} {t u : Ty}

theorem get?_every (hr : r.scopes.Holds (Ty.Every P)) {name : String} (h : r.get? name = some t) :
    t.Every P := by
  obtain ⟨⟨d, u⟩, hlookup, rfl⟩ := Option.map_eq_some_iff.1 h
  exact hr.lookup hlookup

theorem expansion?_every (hr : r.scopes.Holds (Ty.Every P)) (h : r.expansion? t = some u) :
    u.Every P := by
  unfold expansion? at h
  split at h
  · rename_i name
    split at h
    · rename_i hget
      cases h
      exact get?_every hr hget
    · rename_i hget
      cases h
      exact get?_every hr hget
    · rename_i hget
      cases h
      exact get?_every hr hget
    · cases h
  · cases h

theorem expand_every (hr : r.scopes.Holds (Ty.Every P)) (h : t.Every P) :
    (r.expand t).Every P := by
  unfold expand
  cases hexpansion : r.expansion? t with
  | none => exact h
  | some u => exact expansion?_every hr hexpansion

end Registry

section

variable {r : Registry} {classes : List String} {position : Position} {key : MemberKey}

theorem firstSlot_every (hP : Closed P) (hr : r.scopes.Holds (Ty.Every P))
    {expanded : Ty → Except Failure Slot}
    (hexpanded : ∀ t : Ty, t.Every P → GoodSlot P (expanded t)) {ts : List Ty}
    (h : ∀ t ∈ ts, GoodSlot P (memberSlot r classes position key expanded t)) :
    GoodSlot P (firstSlot r classes position key expanded ts) := by
  induction ts with
  | nil => exact .ok (hP.singular _)
  | cons t ts ih =>
    rw [List.forall_mem_cons] at h
    have hrest : ∀ slot : Slot, slot.type.Every P → GoodSlot P
        (if slot.type.isNamed "undefined" then firstSlot r classes position key expanded ts
          else return slot) := fun slot hslot => .ite (ih h.2) (.ok hslot)
    rw [firstSlot]
    cases hexpansion : r.expansion? t with
    | some found => exact .bind (hexpanded found (Registry.expansion?_every hr hexpansion)) hrest
    | none => exact .bind h.1 hrest

theorem memberSlot_every (hP : Closed P) (hr : r.scopes.Holds (Ty.Every P))
    {expanded : Ty → Except Failure Slot}
    (hexpanded : ∀ t : Ty, t.Every P → GoodSlot P (expanded t)) {t : Ty} (h : t.Every P) :
    GoodSlot P (memberSlot r classes position key expanded t) := by
  have hother : ∀ t : Ty, GoodSlot P (if t.containsAny then .ok ⟨.any, true⟩ else .ok .undefined) :=
    fun t => .ite (.ok (hP.singular _)) (.ok (hP.singular _))
  induction h with
  | interface here props index => exact .ok (hP.slot_interface (.interface here props index) key)
  | classType here members mixins superclass =>
    exact hP.slot_class (.classType here members mixins superclass) classes position key
  | intersection _ _ ih => exact firstSlot_every hP hr hexpanded ih
  | @named name args => exact hother (.named name args)
  | @union members => exact hother (.union members)
  | @array element => exact hother (.array element)
  | @function f => exact hother (.function f)
  | @literal value => exact hother (.literal value)

theorem memberWithin_every (hP : Closed P) (hr : r.scopes.Holds (Ty.Every P)) :
    ∀ (fuel : Nat) (t : Ty), t.Every P → GoodSlot P (memberWithin r classes position key fuel t)
  | 0, _, _ => .error trivial
  | fuel + 1, _, h => memberSlot_every hP hr (memberWithin_every hP hr fuel) h

end

/-! ### Expressions -/

/-- All types in scope satisfy the condition. -/
structure Binder.Every (P : Ty → Prop) (b : Binder) : Prop where
  values : b.scopes.Holds fun v => v.type.Every P
  types : b.types.scopes.Holds (Ty.Every P)

namespace Binder.Every

variable {b : Binder} (hb : b.Every P)
include hb

theorem push : b.push.Every P := ⟨hb.values.push, hb.types.push⟩

theorem define {type : Ty} (h : type.Every P) (name : String) (writable : Bool) :
    (b.define name type writable).Every P :=
  ⟨hb.values.insert (a := ⟨name, type, writable⟩) h name, hb.types⟩

theorem declareType {type : Ty} (h : type.Every P) (name : String) :
    (b.declareType name type).Every P := ⟨hb.values, hb.types.insert h name⟩

theorem readVariable {name : String} {id : Nat} {position : Position} {v : Variable × Nat}
    (h : b.readVariable name id position = .ok v) : v.1.type.Every P := by
  unfold Binder.readVariable at h
  dsimp only at h
  split at h
  · split at h
    · rename_i hlookup
      cases h
      exact hb.values.lookupAt hlookup
    · cases h
    · cases h
  · split at h
    · rename_i hlookup
      cases h
      exact hb.values.lookup hlookup
    · cases h

theorem leads (hP : Closed P) {t : Ty} (ht : t.Every P) {position : Position}
    {key : BoundKey BoundExpr} {slot : Slot} {isExtension : Bool}
    (h : b.Leads t position key slot isExtension) : slot.type.Every P := by
  cases h with
  | extension found => exact hP.extension? ht found
  | member _ found => exact (memberWithin_every hP hb.types _ t ht).1 _ found
  | element found => exact hP.elementType? (hP.widened ht) found
  | character _ => exact hP.singular _
  | computed _ _ found => exact (memberWithin_every hP hb.types _ t ht).1 _ found

end Binder.Every

theorem putProperty_every {p : Property Ty} (hp : p.type.Every P) {ps : List (Property Ty)}
    (h : ∀ q ∈ ps, q.type.Every P) : ∀ q ∈ putProperty p ps, q.type.Every P := by
  induction ps with
  | nil => simpa [putProperty] using hp
  | cons q qs ih =>
    rw [List.forall_mem_cons] at h
    unfold putProperty
    split
    · exact List.forall_mem_cons.2 ⟨hp, h.2⟩
    · exact List.forall_mem_cons.2 ⟨h.1, ih h.2⟩

namespace Ty.Closed

variable (hP : Closed P)
include hP

theorem arrayType {es : List BoundExpr} (h : ∀ e ∈ es, e.type.Every P) :
    (ScriptCheck.arrayType es).Every P := by
  unfold ScriptCheck.arrayType
  split
  · exact .array (hP.array _) nofun
  · rename_i hne
    refine hP.arrayOf (hP.unionOf _ (fun heq => hne ?_) fun t ht => ?_)
    · exact List.isEmpty_iff.2 (List.map_eq_nil_iff.1 heq)
    · obtain ⟨e, he, rfl⟩ := List.mem_map.1 ht
      exact hP.widened (h e he)

theorem putIndex {t : Ty} (ht : t.Every P) (key : IndexKey) {is : List (IndexKey × Ty)}
    (h : ∀ x ∈ is, x.2.Every P) : ∀ x ∈ ScriptCheck.putIndex key t is, x.2.Every P := by
  induction is with
  | nil => simpa [ScriptCheck.putIndex] using ht
  | cons x xs ih =>
    obtain ⟨other, u⟩ := x
    rw [List.forall_mem_cons] at h
    unfold ScriptCheck.putIndex
    split
    · refine List.forall_mem_cons.2 ⟨hP.unionOf _ (List.cons_ne_nil _ _) fun v hv => ?_, h.2⟩
      simp only [List.mem_cons, List.not_mem_nil, or_false] at hv
      rcases hv with rfl | rfl
      · exact h.1
      · exact ht
    · exact List.forall_mem_cons.2 ⟨h.1, ih h.2⟩

theorem objectType {entries : List (BoundEntry BoundExpr)} (h : ∀ e ∈ entries, e.value.type.Every P) :
    (Ty.interface (ScriptCheck.objectType entries)).Every P := by
  unfold ScriptCheck.objectType
  refine List.foldlRecOn (motive := fun i => (Ty.interface i).Every P) entries _ ?_ ?_
  · exact .interface (hP.interface _) (List.forall_mem_nil _) (List.forall_mem_nil _)
  · intro i hi e he
    have ht := hP.widened (h e he)
    cases hi with
    | interface _ props index =>
      obtain ⟨key, value⟩ := e
      cases key with
      | name name => exact .interface (hP.interface _) (putProperty_every ht props) index
      | computed key => exact .interface (hP.interface _) props (hP.putIndex ht _ index)

theorem callResult? {t u : Ty} (ht : t.Every P) (h : ScriptCheck.callResult? t = some u) :
    u.Every P := by
  unfold ScriptCheck.callResult? at h
  split at h
  · cases h
    cases ht with
    | function _ _ result => exact result
  · split at h
    · cases h
      exact hP.singular _
    · cases h

theorem iterationType {t : Ty} (ht : t.Every P) : (ScriptCheck.iterationType t).Every P := by
  unfold ScriptCheck.iterationType
  cases helement : t.widened.elementType? with
  | some element => exact hP.elementType? (hP.widened ht) helement
  | none =>
    dsimp only
    split <;> exact hP.singular _

end Ty.Closed

/-- Operators take and give basic types and numbers. -/
theorem BinaryOperator.every (hP : Closed P) {use : BinaryOperator} (h : use ∈ all) :
    use.left.Every P ∧ use.right.Every P ∧ use.result.Every P := by
  simp only [all, arithmetic, orderings, List.cons_append, List.nil_append] at h
  fin_cases h <;>
    refine ⟨?_, ?_, ?_⟩ <;> first | exact hP.singular _ | exact hP.number

theorem UnaryOperator.every (hP : Closed P) {use : UnaryOperator} (h : use ∈ all) :
    use.operand.Every P ∧ use.result.Every P := by
  unfold all at h
  fin_cases h <;> refine ⟨?_, ?_⟩ <;> first | exact hP.singular _ | exact hP.number

/-- The type of a bound expression satisfies a condition that all types in scope satisfy. -/
theorem BoundExpr.Typed.every (hP : Closed P) {b : Binder} (hb : b.Every P) {e : BoundExpr}
    (h : e.Typed b) : e.type.Every P := by
  show e.node.type.Every P
  induction h with
  | literal type ordinary => exact type ▸ .literal (hP.literal _ ordinary)
  | @keyword _ word type =>
    rw [node, type]
    cases word <;> exact hP.singular _
  | symbol reads type =>
    rw [node, type]
    exact hb.readVariable reads
  | array _ type ih =>
    rw [node, type]
    exact hP.arrayType ih
  | object _ _ type _ ih =>
    rw [node, type]
    exact hP.objectType ih
  | binary _ _ listed type =>
    rw [node, type]
    exact (BinaryOperator.every hP listed).2.2
  | unary _ _ listed type =>
    rw [node, type]
    exact (UnaryOperator.every hP listed).2
  | assign _ _ _ type _ ih =>
    rw [node, type]
    exact ih
  | access _ _ leads type ih =>
    rw [node, type]
    exact hb.leads hP (Registry.expand_every hb.types ih) leads
  | call _ _ type ih => exact hP.callResult? ih type
  | construct found _ type =>
    obtain ⟨_, _, _, v, hread, hclass⟩ := found
    rw [node, type, ← hclass]
    exact hb.readVariable hread

/-- So do the types of its operator and the class that it constructs. -/
theorem BoundExpr.Typed.every_types (hP : Closed P) {b : Binder} (hb : b.Every P) {e : BoundExpr}
    (h : e.Typed b) : ∀ t ∈ e.types, t.Every P := by
  have htype := h.every hP hb
  cases h with
  | binary _ _ listed _ =>
    obtain ⟨hleft, hright, hresult⟩ := BinaryOperator.every hP listed
    simpa [types] using ⟨htype, hleft, hright, hresult⟩
  | unary _ _ listed _ =>
    obtain ⟨hoperand, hresult⟩ := UnaryOperator.every hP listed
    simpa [types] using ⟨htype, hoperand, hresult⟩
  | assign _ _ _ _ listed =>
    refine List.forall_mem_cons.2 ⟨htype, fun t ht => ?_⟩
    obtain ⟨use, huse, ht⟩ := List.mem_flatMap.1 ht
    obtain ⟨hleft, hright, hresult⟩ := BinaryOperator.every hP (listed use (Option.mem_toList.1 huse))
    simp only [List.mem_cons, List.not_mem_nil, or_false] at ht
    rcases ht with rfl | rfl | rfl
    · exact hleft
    · exact hright
    · exact hresult
  | construct _ _ type =>
    refine List.forall_mem_cons.2 ⟨htype, List.forall_mem_singleton.2 ?_⟩
    exact type ▸ htype
  | _ => exact List.forall_mem_singleton.2 htype

theorem BoundExpr.Typed.every_allTypes (hP : Closed P) {b : Binder} (hb : b.Every P) {e : BoundExpr}
    (h : e.Typed b) : ∀ t ∈ e.allTypes, t.Every P := by
  intro t ht
  obtain ⟨x, hx, ht⟩ := List.mem_flatMap.1 ht
  exact (h.subterms x hx).every_types hP hb t ht

/-- So do the types of an optional expression. -/
theorem BoundExpr.every_optional (hP : Closed P) {b : Binder} (hb : b.Every P) {e : Option BoundExpr}
    (h : ∀ v ∈ e, v.Typed b) : ∀ t ∈ e.toList.flatMap allTypes, t.Every P := by
  intro t ht
  obtain ⟨v, hv, ht⟩ := List.mem_flatMap.1 ht
  exact (h v (Option.mem_toList.1 hv)).every_allTypes hP hb t ht

/-! ### References -/

theorem Registry.resolve_every (hP : Closed P) {r : Registry} (hr : r.scopes.Holds (Ty.Every P))
    {name : String} {args : List Ty} (hargs : ∀ t ∈ args, t.Every P) (span : Span) :
    Gives (fun _ => True) (Ty.Every P) (r.resolve name args span) := by
  unfold resolve
  refine .ite (.ite (.ok (hP.arrayOf (hP.singular _))) (.ok (hP.generic hargs))) ?_
  cases hget : r.get? name with
  | some t => exact .ite (.ok (get?_every hr hget)) (.ok (hP.generic hargs))
  | none => exact .error trivial

namespace TypeRef

variable {r : Registry}

mutual

/-- The type that a sound reference stands for is made of types in scope. -/
theorem toTy_every (hP : Closed P) (hr : r.scopes.Holds (Ty.Every P)) : ∀ ref : TypeRef,
    ref.Sound P → Gives (fun _ => True) (Ty.Every P) (toTy r ref)
  | .named _ args span, .named parts =>
    .bind (allToTy_every hP hr args parts) fun _ hts => Registry.resolve_every hP hr hts.2 span
  | .array element _, .array part =>
    .bind (toTy_every hP hr element part) fun _ ht => .ok (hP.arrayOf ht)
  | .union members _, .union empty parts =>
    .bind (allToTy_every hP hr members parts) fun _ hts =>
      .ok (hP.union_every (fun heq => empty (hts.1.1 heq)) hts.2)
  | .intersection members _, .intersection empty parts =>
    .bind (allToTy_every hP hr members parts) fun _ hts =>
      .ok (hP.intersection_every (fun heq => empty (hts.1.1 heq)) hts.2)
  | .interface props index _, .interface propTypes indexTypes =>
    .bind (propsToTy_every hP hr props propTypes) fun _ hps =>
      .bind (indexToTy_every hP hr index indexTypes) fun _ his =>
        .ok (.interface (hP.interface _) hps his)
  | .function params result _, .function paramTypes resultType =>
    .bind (paramsToTy_every hP hr params paramTypes) fun _ hps =>
      .bind (toTy_every hP hr result resultType) fun _ ht => .ok (hP.fn hps ht)
  | .literal _ _, .literal here => .ok (.literal here)
termination_by structural ref => ref

theorem allToTy_every (hP : Closed P) (hr : r.scopes.Holds (Ty.Every P)) : ∀ refs : List TypeRef,
    (∀ ref ∈ refs, ref.Sound P) → Gives (fun _ => True)
      (fun ts => (ts = [] ↔ refs = []) ∧ ∀ t ∈ ts, t.Every P) (allToTy r refs)
  | [], _ => .ok ⟨iff_of_true rfl rfl, nofun⟩
  | ref :: refs, h =>
    .bind (toTy_every hP hr ref (List.forall_mem_cons.1 h).1) fun _ ht =>
      .bind (allToTy_every hP hr refs (List.forall_mem_cons.1 h).2) fun _ hts =>
        .ok ⟨iff_of_false (List.cons_ne_nil _ _) (List.cons_ne_nil _ _),
          List.forall_mem_cons.2 ⟨ht, hts.2⟩⟩
termination_by structural refs => refs

theorem propsToTy_every (hP : Closed P) (hr : r.scopes.Holds (Ty.Every P)) :
    ∀ refs : List (PropertyRef TypeRef), (∀ ref ∈ refs, ref.type.Sound P) →
      Gives (fun _ => True) (fun ps => ∀ p ∈ ps, p.type.Every P) (propsToTy r refs)
  | [], _ => .ok nofun
  | ⟨_, type, _⟩ :: refs, h =>
    .bind (toTy_every hP hr type (List.forall_mem_cons.1 h).1) fun _ ht =>
      .bind (propsToTy_every hP hr refs (List.forall_mem_cons.1 h).2) fun _ hps =>
        .ok (List.forall_mem_cons.2 ⟨ht, hps⟩)
termination_by structural refs => refs

theorem indexToTy_every (hP : Closed P) (hr : r.scopes.Holds (Ty.Every P)) :
    ∀ refs : List (IndexRef TypeRef), (∀ ref ∈ refs, ref.type.Sound P) →
      Gives (fun _ => True) (fun is => ∀ i ∈ is, i.2.Every P) (indexToTy r refs)
  | [], _ => .ok nofun
  | ⟨key, keySpan, type⟩ :: refs, h => by
    have hkey : Gives (fun _ => True) (fun _ => True) (IndexKey.read key keySpan) :=
      ⟨fun _ _ => trivial, fun _ _ => trivial⟩
    obtain ⟨htype, hrefs⟩ := List.forall_mem_cons.1 h
    exact .bind hkey fun _ _ => .bind (toTy_every hP hr type htype) fun _ ht =>
      .bind (indexToTy_every hP hr refs hrefs) fun _ his => .ok (List.forall_mem_cons.2 ⟨ht, his⟩)
termination_by structural refs => refs

theorem paramsToTy_every (hP : Closed P) (hr : r.scopes.Holds (Ty.Every P)) :
    ∀ refs : List (ParamRef TypeRef), (∀ ref ∈ refs, ref.type.Sound P) →
      Gives (fun _ => True) (fun ps => ∀ p ∈ ps, p.2.Every P) (paramsToTy r refs)
  | [], _ => .ok nofun
  | ⟨_, type⟩ :: refs, h =>
    .bind (toTy_every hP hr type (List.forall_mem_cons.1 h).1) fun _ ht =>
      .bind (paramsToTy_every hP hr refs (List.forall_mem_cons.1 h).2) fun _ hps =>
        .ok (List.forall_mem_cons.2 ⟨ht, hps⟩)
termination_by structural refs => refs

end

end TypeRef

/-! ### Parts of statements -/

open Binder Binding

/-- The parameters and the result of a function satisfy the condition. -/
structure Signature.Every (P : Ty → Prop) (f : Signature Ty) : Prop where
  params : ∀ p ∈ f.params, p.2.Every P
  result : f.result.Every P

section

variable {base : Binder} (hP : Closed P) (hbase : base.Every P)
include hbase

theorem bindSuperclass_every : ∀ name : Option Name,
    base.Yields (bindSuperclass name) fun t => ∀ u ∈ t, u.Every P
  | none => .pure nofun
  | some name => by
    refine .reading fun b hb => ?_
    obtain ⟨ts, rfl⟩ := hb
    split
    · rename_i c hget
      refine .pure fun u hu => ?_
      cases hu
      exact Registry.get?_every hbase.types hget
    · exact .fails _

theorem bindMixins_every : ∀ names : List Name,
    base.Yields (bindMixins names) fun ts => ∀ t ∈ ts, t.Every P
  | [] => .pure nofun
  | name :: names => by
    refine .reading fun b hb => ?_
    obtain ⟨ts, rfl⟩ := hb
    split
    · rename_i c hget
      exact .bind (bindMixins_every names) fun _ hts =>
        .pure (List.forall_mem_cons.2 ⟨Registry.get?_every hbase.types hget, hts⟩)
    · rename_i i hget
      exact .bind (bindMixins_every names) fun _ hts =>
        .pure (List.forall_mem_cons.2 ⟨Registry.get?_every hbase.types hget, hts⟩)
    · exact .fails _

include hP

theorem typeOf_every {ref : TypeRef} (href : ref.Sound P) :
    base.Yields (typeOf ref) (Ty.Every P) := by
  refine .reading fun b hb => ?_
  obtain ⟨ts, rfl⟩ := hb
  dsimp only
  cases htype : ref.toTy base.types with
  | ok t => exact .pure ((ref.toTy_every hP hbase.types href).1 t htype)
  | error d => exact .fails _

theorem typeOrAny_every : ∀ ref : Option TypeRef, (∀ x ∈ ref, x.Sound P) →
    base.Yields (typeOrAny ref) (Ty.Every P)
  | some ref, href => typeOf_every hP hbase (href ref rfl)
  | none, _ => .pure (hP.singular _)

theorem bindParams_every : ∀ ps : List Param, (∀ p ∈ ps, p.type.Sound P) →
    base.Yields (bindParams ps) fun ts => ∀ t ∈ ts, t.2.Every P
  | [], _ => .pure nofun
  | _ :: ps, h =>
    .bind (typeOf_every hP hbase (List.forall_mem_cons.1 h).1) fun _ ht =>
      .bind (bindParams_every ps (List.forall_mem_cons.1 h).2) fun _ hts =>
        .pure (List.forall_mem_cons.2 ⟨ht, hts⟩)

theorem bindSignature_every {ps : List Param} {result : Option TypeRef}
    (hparams : ∀ p ∈ ps, p.type.Sound P) (hresult : ∀ x ∈ result, x.Sound P) :
    base.Yields (bindSignature ps result) (Signature.Every P) :=
  .bind (bindParams_every hP hbase ps hparams) fun _ hps =>
    .bind (typeOrAny_every hP hbase result hresult) fun _ ht => .pure ⟨hps, ht⟩

/-- A field has a good type, and it may be written to unless it is constant. -/
theorem fieldMembers_every : ∀ fs : List FieldDecl, (∀ f ∈ fs, f.type.Sound P) →
    base.Yields (fieldMembers fs) fun ms =>
      ∀ m ∈ ms, m.type.Every P ∧ m.writable = !m.modifiers.isConst
  | [], _ => .pure nofun
  | _ :: fs, h =>
    .bind (typeOf_every hP hbase (List.forall_mem_cons.1 h).1) fun _ ht =>
      .bind (fieldMembers_every fs (List.forall_mem_cons.1 h).2) fun _ hms =>
        .pure (List.forall_mem_cons.2 ⟨⟨ht, rfl⟩, hms⟩)

/-- A method has a good function type, and it may never be written to. -/
theorem methodMembers_every : ∀ ms : List (MethodDecl Stmt),
    (∀ m ∈ ms, (∀ p ∈ m.function.params, p.type.Sound P) ∧ ∀ x ∈ m.function.result, x.Sound P) →
    base.Yields (methodMembers ms) fun members => ∀ m ∈ members,
      m.type.Every P ∧ m.type.isFunction = true ∧ m.writable = false
  | [], _ => .pure nofun
  | m :: ms, h => by
    obtain ⟨⟨hparams, hresult⟩, hrest⟩ := List.forall_mem_cons.1 h
    exact .bind (bindSignature_every hP hbase hparams hresult) fun _ hs =>
      .bind (methodMembers_every ms hrest) fun _ hms =>
        .pure (List.forall_mem_cons.2
          ⟨⟨.function (hP.function _) hs.params hs.result, rfl, rfl⟩, hms⟩)

end

theorem Ty.Closed.variableType (hP : Closed P) {declared : Ty} {value : Option BoundExpr}
    (hdeclared : declared.Every P) (hvalue : ∀ e ∈ value, e.type.Every P) :
    (ScriptCheck.variableType declared value).Every P := by
  cases value with
  | none => exact hdeclared
  | some e =>
    unfold ScriptCheck.variableType
    dsimp only
    split
    · exact hP.widened (hvalue e rfl)
    · split
      · refine hP.unionOf _ (List.cons_ne_nil _ _) ?_
        simpa using ⟨hdeclared, hP.singular _⟩
      · exact hdeclared

theorem Ty.Closed.nameInterface (hP : Closed P) {t : Ty} (h : t.Every P) (name : String) :
    (ScriptCheck.nameInterface name t).Every P := by
  cases h with
  | interface here props index => exact .interface (hP.interface _) props index
  | named here parts => exact .named here parts
  | union here parts => exact .union here parts
  | array here parts => exact .array here parts
  | function here params result => exact .function here params result
  | classType here members mixins superclass => exact .classType here members mixins superclass
  | literal here => exact .literal here
  | intersection here parts => exact .intersection here parts

/-- The union of good return types is good. -/
theorem Ty.Closed.joinReturns (hP : Closed P) {types : List (Option Ty)}
    (h : ∀ t ∈ types, ∀ u ∈ t, u.Every P) : ∀ t ∈ ScriptCheck.joinReturns types, t.Every P := by
  intro t ht
  unfold ScriptCheck.joinReturns at ht
  split at ht
  · cases ht
  · rename_i hne
    cases ht
    refine hP.unionOf _ hne fun u hu => ?_
    obtain ⟨o, ho, rfl⟩ := List.mem_filterMap.1 hu
    exact h _ ho u rfl

end ScriptCheck
