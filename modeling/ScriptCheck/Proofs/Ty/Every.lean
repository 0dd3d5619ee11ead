import ScriptCheck.Binding
import ScriptCheck.Proofs.Anchor.Failures
import ScriptCheck.Proofs.Scopes

/-!
Conditions on a type and on all types it is built from. The operations on types put types together and
take them apart; a condition that the basic types and the unions and intersections of good types satisfy
is kept by all of them, so that only the places where a class is declared have to be looked at.
-/

namespace ScriptCheck

namespace Ty

/-- A condition holds of a type and of every type it is built from. -/
inductive Every (P : Ty → Prop) : Ty → Prop
  | named {name : String} {args : List Ty} (here : P (.named name args))
      (parts : ∀ t ∈ args, Every P t) : Every P (.named name args)
  | union {members : List Ty} (here : P (.union members)) (parts : ∀ t ∈ members, Every P t) :
      Every P (.union members)
  | array {element : Option Ty} (here : P (.array element)) (parts : ∀ t ∈ element, Every P t) :
      Every P (.array element)
  | interface {i : Interface Ty} (here : P (.interface i)) (props : ∀ p ∈ i.props, Every P p.type)
      (index : ∀ x ∈ i.index, Every P x.2) : Every P (.interface i)
  | function {f : Signature Ty} (here : P (.function f)) (params : ∀ p ∈ f.params, Every P p.2)
      (result : Every P f.result) : Every P (.function f)
  | classType {c : ClassDef Ty} (here : P (.classType c))
      (members : ∀ m ∈ c.members, Every P m.type) (mixins : ∀ t ∈ c.mixins, Every P t)
      (superclass : ∀ t ∈ c.superclass, Every P t) : Every P (.classType c)
  | literal {value : Literal} (here : P (.literal value)) : Every P (.literal value)
  | intersection {members : List Ty} (here : P (.intersection members))
      (parts : ∀ t ∈ members, Every P t) : Every P (.intersection members)

variable {P : Ty → Prop} {t u : Ty} {ts : List Ty}

theorem Every.here (h : t.Every P) : P t := by
  cases h <;> assumption

/-- A condition that holds of the basic types, of the literals that can be read, and of unions and
intersections of good types if these are of something. -/
structure Closed (P : Ty → Prop) : Prop where
  named : ∀ name args, P (.named name args)
  array : ∀ element, P (.array element)
  interface : ∀ i, P (.interface i)
  function : ∀ f, P (.function f)
  literal : ∀ value, value ≠ .float .nan → P (.literal value)
  unionOf : ∀ ts, ts ≠ [] → (∀ t ∈ ts, t.Every P) → (Ty.unionOf ts).Every P
  intersectionOf : ∀ ts, ts ≠ [] → (∀ t ∈ ts, t.Every P) → (Ty.intersectionOf ts).Every P

/-! ### Conditions on classes -/

theorem mem_of_mem_addDistinct (h : u ∈ addDistinct ts t) : u ∈ ts ∨ u = t := by
  unfold addDistinct at h
  split at h
  · exact .inl h
  · simpa using h

theorem mem_of_mem_distinct (h : t ∈ distinct ts) : t ∈ ts := by
  have hfold : ∀ (ts seen : List Ty), t ∈ ts.foldl addDistinct seen → t ∈ seen ∨ t ∈ ts := by
    intro ts
    induction ts with
    | nil => exact fun _ hmem => .inl hmem
    | cons u us ih =>
      intro seen hmem
      rcases ih _ hmem with hseen | hus
      · rcases mem_of_mem_addDistinct hseen with hseen | rfl
        · exact .inl hseen
        · exact .inr List.mem_cons_self
      · exact .inr (List.mem_cons_of_mem _ hus)
  exact (hfold ts [] h).resolve_left List.not_mem_nil

/-- What is taken out of good types and put together is good. -/
theorem every_distinct {members : Ty → List Ty}
    (hmembers : ∀ t : Ty, t.Every P → ∀ u ∈ members t, u.Every P) (h : ∀ t ∈ ts, t.Every P) :
    ∀ u ∈ distinct (ts.flatMap members), u.Every P := by
  intro u hu
  obtain ⟨t, ht, hmem⟩ := List.mem_flatMap.1 (mem_of_mem_distinct hu)
  exact hmembers t (h t ht) u hmem

theorem Every.unionMembers (h : t.Every P) : ∀ u ∈ t.unionMembers, u.Every P := by
  intro u hu
  cases t with
  | union ms =>
    cases h with
    | union _ parts => exact parts u hu
  | _ => exact List.mem_singleton.1 hu ▸ h

theorem Every.intersectionMembers (h : t.Every P) : ∀ u ∈ t.intersectionMembers, u.Every P := by
  intro u hu
  cases t with
  | intersection ms =>
    cases h with
    | intersection _ parts => exact parts u hu
  | _ => exact List.mem_singleton.1 hu ▸ h

/-- What is put together satisfies the condition if its members do and it does so itself. -/
theorem every_gather {members : Ty → List Ty} {make : List Ty → Ty}
    (hmembers : ∀ t : Ty, t.Every P → ∀ u ∈ members t, u.Every P)
    (hmake : ∀ ms, P (make ms) → (∀ m ∈ ms, m.Every P) → (make ms).Every P) (h : ∀ t ∈ ts, t.Every P)
    (here : (∀ t, distinct (ts.flatMap members) ≠ [t]) → P (make (distinct (ts.flatMap members)))) :
    (gather members make ts).Every P := by
  have hparts := every_distinct hmembers h
  rcases gather_cases members make ts with ⟨t, hone, heq⟩ | ⟨hmany, heq⟩
  · rw [heq]
    exact hparts t (hone ▸ List.mem_cons_self)
  · rw [heq]
    exact hmake _ (here fun t ht => hmany (ht ▸ rfl)) hparts

theorem every_unionOf (h : ∀ t ∈ ts, t.Every P)
    (here : (∀ t, distinct (ts.flatMap Ty.unionMembers) ≠ [t]) →
      P (.union (distinct (ts.flatMap Ty.unionMembers)))) : (unionOf ts).Every P :=
  every_gather (fun _ => Every.unionMembers) (fun _ => .union) h here

theorem every_intersectionOf (h : ∀ t ∈ ts, t.Every P)
    (here : (∀ t, distinct (ts.flatMap Ty.intersectionMembers) ≠ [t]) →
      P (.intersection (distinct (ts.flatMap Ty.intersectionMembers)))) : (intersectionOf ts).Every P :=
  every_gather (fun _ => Every.intersectionMembers) (fun _ => .intersection) h here

/-- A condition on classes, which all other types satisfy. -/
def OnClasses (C : ClassDef Ty → Prop) : Ty → Prop
  | .classType c => C c
  | _ => True

theorem closed_onClasses (C : ClassDef Ty → Prop) : Closed (OnClasses C) where
  named _ _ := trivial
  array _ := trivial
  interface _ := trivial
  function _ := trivial
  literal _ _ := trivial
  unionOf _ _ h := every_unionOf h fun _ => trivial
  intersectionOf _ _ h := every_intersectionOf h fun _ => trivial

/-! ### Operations on types -/

theorem mem_widenedAll (h : u ∈ widenedAll ts) : ∃ t ∈ ts, u = t.widened := by
  induction ts with
  | nil => cases h
  | cons t ts ih =>
    rcases List.mem_cons.1 h with rfl | h
    · exact ⟨t, List.mem_cons_self, rfl⟩
    · obtain ⟨v, hv, heq⟩ := ih h
      exact ⟨v, List.mem_cons_of_mem _ hv, heq⟩

namespace Closed

variable (hP : Closed P)
include hP

theorem singular (name : String) : (Ty.singular name).Every P := .named (hP.named _ _) nofun

theorem number : Ty.number.Every P := by
  refine hP.unionOf _ (List.cons_ne_nil _ _) fun t ht => ?_
  simp only [List.mem_cons, List.not_mem_nil, or_false] at ht
  rcases ht with rfl | rfl <;> exact hP.singular _

/-- A union may be of nothing if the condition says so. -/
theorem union_every (hempty : ts = [] → P (.union [])) (h : ∀ t ∈ ts, t.Every P) :
    (Ty.unionOf ts).Every P := by
  cases ts with
  | nil => exact .union (hempty rfl) nofun
  | cons t ts => exact hP.unionOf _ (List.cons_ne_nil _ _) h

theorem intersection_every (hempty : ts = [] → P (.intersection [])) (h : ∀ t ∈ ts, t.Every P) :
    (Ty.intersectionOf ts).Every P := by
  cases ts with
  | nil => exact .intersection (hempty rfl) nofun
  | cons t ts => exact hP.intersectionOf _ (List.cons_ne_nil _ _) h

theorem fn {params : List (String × Ty)} {result : Ty} (hparams : ∀ p ∈ params, p.2.Every P)
    (hresult : result.Every P) : (Ty.fn params result).Every P :=
  .function (hP.function _) hparams hresult

theorem arrayOf (h : t.Every P) : (Ty.array (some t)).Every P :=
  .array (hP.array _) fun _ hmem => Option.mem_some.1 hmem ▸ h

theorem generic {name : String} (h : ∀ t ∈ ts, t.Every P) : (Ty.generic name ts).Every P := by
  unfold Ty.generic
  split
  · split
    · exact hP.arrayOf (h _ List.mem_cons_self)
    · exact .named (hP.named _ _) h
  · exact .named (hP.named _ _) h

theorem widened (h : t.Every P) : t.widened.Every P := by
  induction h with
  | literal _ => exact hP.singular _
  | @union members here _ ih =>
    refine hP.union_every (fun heq => ?_) fun u hu => ?_
    · cases members with
      | nil => exact here
      | cons t ts => cases heq
    · obtain ⟨t, ht, rfl⟩ := mem_widenedAll hu
      exact ih t ht
  | named here parts => exact .named here parts
  | array here parts => exact .array here parts
  | interface here props index => exact .interface here props index
  | function here params result => exact .function here params result
  | classType here members mixins superclass => exact .classType here members mixins superclass
  | intersection here parts => exact .intersection here parts

theorem elementType? (h : t.Every P) (he : t.elementType? = some u) : u.Every P := by
  obtain ⟨element, helement, rfl⟩ := Option.map_eq_some_iff.1 he
  have hsome : ∀ v ∈ element, v.Every P := by
    cases h with
    | array _ parts =>
      cases helement
      exact parts
    | named _ parts =>
      simp only [arrayElement?] at helement
      split at helement
      · cases helement
        exact fun v hv => parts v (List.mem_of_mem_head? hv)
      · cases helement
    | _ => cases helement
  cases element with
  | none => exact hP.singular _
  | some v => exact hsome v rfl

/-- The built-in members of a type are made of basic types and of its elements. -/
theorem extension? {name : String} (h : t.Every P) (he : t.extension? name = some u) :
    u.Every P := by
  have hint : int.Every P := hP.singular _
  have hstring : string.Every P := hP.singular _
  have hbool : bool.Every P := hP.singular _
  have hpairs : ∀ p ∈ t.extensions, p.2.Every P := by
    unfold extensions
    dsimp only
    cases helement : t.widened.elementType? with
    | some element =>
      have hel := hP.elementType? (hP.widened h) helement
      simp only [arrayMembers, List.forall_mem_cons]
      exact ⟨hint, hP.fn (by simpa using hel) (hP.singular _), hP.fn nofun hel,
        hP.fn (by simpa using hstring) hstring, nofun⟩
    | none =>
      dsimp only
      split
      · simp only [stringMembers, List.forall_mem_cons]
        exact ⟨hint, hP.fn nofun hstring, hP.fn nofun hstring,
          hP.fn (by simpa using hstring) (hP.arrayOf hstring), hP.fn (by simpa using hstring) hbool,
          nofun⟩
      · simp only [numberMembers, List.forall_mem_cons]
        exact ⟨hP.fn nofun hstring, nofun⟩
      · simp only [numberMembers, List.forall_mem_cons]
        exact ⟨hP.fn nofun hstring, nofun⟩
      · simp only [rangeMembers, List.forall_mem_cons]
        exact ⟨hint, hint, hP.fn (by simpa using hint) hbool, hP.fn nofun (hP.arrayOf hint), nofun⟩
      · nofun
  obtain ⟨before, behind, heq, -⟩ := List.lookup_eq_some_iff.1 he
  exact hpairs (name, u) (heq ▸ List.mem_append_right _ List.mem_cons_self)

end Closed

end Ty

end ScriptCheck
