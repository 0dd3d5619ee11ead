import Mathlib.Data.List.Nodup
import ScriptCheck.Proofs.Ty.Every
import ScriptCheck.Proofs.Ty.Join
import ScriptCheck.Proofs.Ty.Respelled
import ScriptCheck.Proofs.Ty.Transitive
import ScriptCheck.Proofs.Ty.Widening

/-!
Both spellings of an array type behave alike: to respell the arrays in two types does not change whether one
goes into the other. Most rules of assignability look at the parts of types only, which are respelled with
them. Two types may become equal by being respelled, though; the rules for types of their kind must then
have let the one into the other before. That is where intersections and repeated properties are in the way.
-/

namespace ScriptCheck

namespace Ty

/-- Types for which the spelling of arrays does not matter: no intersections, interfaces that name each
property once, and no class or interface with the name of arrays. -/
def Respellable : Ty → Prop
  | .intersection _ => False
  | .interface i => i.name ≠ some "Array" ∧ (i.props.map (·.name)).Nodup
  | .classType c => c.name ≠ "Array"
  | _ => True

variable {P : Ty → Prop} {a b s t : Ty} {n : Nat}

theorem Every.arrayElement? (h : t.Every P) (he : t.arrayElement? = some (some s)) : s.Every P := by
  cases h with
  | array _ parts =>
    cases he
    exact parts s rfl
  | named _ parts =>
    simp only [Ty.arrayElement?] at he
    split at he
    · exact parts s (List.mem_of_mem_head? (Option.some.inj he))
    · cases he
  | _ => cases he

end Ty

/-! ### Shapes -/

/-- A condition holds of the types in a shape and of every type they are built from. -/
def Shape.Every (P : Ty → Prop) (s : Shape) : Prop :=
  (∀ e ∈ s.props, e.2.Every P) ∧ ∀ e ∈ s.index, e.2.Every P

namespace Shape

variable {P : Ty → Prop}

theorem Every.merge {s t : Shape} (hs : s.Every P) (ht : t.Every P) : (s.merge t).Every P :=
  ⟨fun e he => (mem_foldl_addNew he).elim (hs.1 e) (ht.1 e),
    fun e he => (mem_foldl_addNew he).elim (hs.2 e) (ht.2 e)⟩

theorem Every.foldl_merge {s : Shape} {ts : List Shape} (hs : s.Every P)
    (hts : ∀ t ∈ ts, t.Every P) : (ts.foldl Shape.merge s).Every P := by
  induction ts generalizing s with
  | nil => exact hs
  | cons t ts ih =>
    rw [List.forall_mem_cons] at hts
    exact ih (hs.merge hts.1) hts.2

theorem property?_respelled (s : Shape) (name : String) :
    s.respelled.property? name = (s.property? name).map Ty.respelled := by
  simp only [property?, respelled, List.find?_map, Option.map_map]
  rfl

end Shape

namespace Ty

variable {P : Ty → Prop} {a b s t : Ty} {n : Nat}

theorem exists_of_mem_shapes {ts : List Ty} {shape : Shape} (h : shape ∈ shapes ts) :
    ∃ t ∈ ts, t.shape? = some shape := by
  induction ts with
  | nil => cases h
  | cons t ts ih =>
    rcases List.mem_append.1 h with h | h
    · exact ⟨t, List.mem_cons_self, Option.mem_toList.1 h⟩
    · obtain ⟨u, hu, hshape⟩ := ih h
      exact ⟨u, List.mem_cons_of_mem _ hu, hshape⟩

/-- What is seen of a respellable type is made of respellable types. -/
theorem shape?_respellable (h : t.Every Respellable) :
    ∀ {shape : Shape}, t.shape? = some shape → shape.Every Respellable := by
  induction h with
  | interface _ props index =>
    intro shape heq
    simp only [shape?, Option.some.injEq] at heq
    subst heq
    refine ⟨fun e he => ?_, index⟩
    obtain ⟨p, hp, rfl⟩ := List.mem_map.1 he
    exact props p hp
  | @classType c _ members _ _ _ ihmixins ihsuper =>
    intro shape heq
    simp only [shape?, Option.some.injEq] at heq
    subst heq
    refine Shape.Every.foldl_merge ⟨fun e he => ?_, nofun⟩ fun shape hshape => ?_
    · obtain ⟨m, hm, rfl⟩ := List.mem_map.1 he
      exact members m (List.mem_filter.1 hm).1
    · rcases List.mem_append.1 hshape with hshape | hshape
      · rw [Option.mem_toList] at hshape
        cases hsuper : c.superclass with
        | none =>
          rw [hsuper] at hshape
          cases hshape
        | some u =>
          rw [hsuper] at hshape
          exact ihsuper u hsuper hshape
      · obtain ⟨u, hu, hshape⟩ := exists_of_mem_shapes hshape
        exact ihmixins u hu hshape
  | intersection here _ => exact here.elim
  | _ => nofun

/-! ### Rules -/

/-- To respell two types that are smaller together than a bound does not change whether one goes into the
other. -/
def RespelledBelow (n : Nat) : Prop :=
  ∀ a b : Ty, a.Every Respellable → b.Every Respellable → a.size + b.size < n →
    a.respelled.isAssignableTo b.respelled = a.isAssignableTo b

theorem satisfies_respelled (ih : RespelledBelow n) {k m : Nat} (hn : k + m ≤ n) {s t : Shape}
    (hs : s.Every Respellable) (ht : t.Every Respellable) (hsk : s.Below k) (htm : t.Below m) :
    s.respelled.satisfies isAssignableTo t.respelled = s.satisfies isAssignableTo t := by
  simp only [Shape.satisfies, Shape.property?_respelled]
  simp only [Shape.respelled, List.all_map, List.any_map]
  congr 1
  · refine all_congr_of_mem fun e he => ?_
    simp only [Function.comp_apply, Prod.map, id]
    cases hprop : s.property? e.1 with
    | none => rfl
    | some u =>
      obtain ⟨d, hd, rfl⟩ := Shape.property?_mem hprop
      have := hsk.1 d hd
      have := htm.1 e he
      exact ih d.2 e.2 (hs.1 d hd) (ht.1 e he) (by omega)
  · refine all_congr_of_mem fun e he => ?_
    have := htm.2 e he
    simp only [Function.comp_apply, Prod.map, id]
    congr 1
    · refine any_congr_of_mem fun d hd => ?_
      have := hsk.2 d hd
      simp only [Function.comp_apply, Prod.map, id]
      rw [ih d.2 e.2 (hs.2 d hd) (ht.2 e he) (by omega)]
    · congr 1
      refine all_congr_of_mem fun d hd => ?_
      have := hsk.1 d hd
      exact ih d.2 e.2 (hs.1 d hd) (ht.2 e he) (by omega)

theorem shapesSatisfy_respelled (ih : RespelledBelow n) (hn : a.size + b.size ≤ n)
    (ha : a.Every Respellable) (hb : b.Every Respellable) :
    shapesSatisfy isAssignableTo a.respelled b.respelled = shapesSatisfy isAssignableTo a b := by
  unfold shapesSatisfy
  rw [shape?_respelled, shape?_respelled]
  cases hs : a.shape? with
  | none => rfl
  | some s =>
    cases ht : b.shape? with
    | none => rfl
    | some t =>
      exact satisfies_respelled ih hn (shape?_respellable ha hs) (shape?_respellable hb ht)
        (shape?_below a s hs) (shape?_below b t ht)

/-- What is no array is spelled by a name that is not that of arrays. -/
theorem name_ne_of_arrayElement? {name : String} {args : List Ty}
    (h : (named name args).arrayElement? = none) : name ≠ "Array" := by
  rintro rfl
  cases h

/-- A class goes where what it extends or mixes in goes. -/
theorem classInto_respelled {c d : ClassDef Ty} (hmixins : ∀ u ∈ c.mixins, u.Every Respellable)
    (hsuper : ∀ u ∈ c.superclass, u.Every Respellable)
    (hinto : ∀ u : Ty, u.Every Respellable → u.size < (classType c).size →
      u.respelled.isAssignableTo (classType d).respelled = u.isAssignableTo (classType d)) :
    plainInto isAssignableTo (classType c).respelled (classType d).respelled =
      plainInto isAssignableTo (classType c) (classType d) := by
  obtain ⟨name, members, mixins, superclass⟩ := c
  simp only [size] at hinto
  simp only [respelled, plainInto, respelledAll_eq, respelledOption_eq, Option.any_map,
    List.any_map] at hinto ⊢
  congr 1
  · congr 1
    cases superclass with
    | none => rfl
    | some u =>
      simp only [sizeOption] at hinto
      exact hinto u (hsuper u rfl) (by omega)
  · refine any_congr_of_mem fun u hu => ?_
    have := size_le_sizeAll hu
    exact hinto u (hmixins u hu) (by omega)

/-- Types that are no arrays are compared by their kinds, and their kinds by their parts. -/
theorem plainInto_respelled (ih : RespelledBelow n) (hn : a.size + b.size ≤ n)
    (ha : a.Every Respellable) (hb : b.Every Respellable) (haa : a.arrayElement? = none)
    (hba : b.arrayElement? = none) :
    plainInto isAssignableTo a.respelled b.respelled = plainInto isAssignableTo a b := by
  cases ha with
  | @named name as _ has =>
    have hname := name_ne_of_arrayElement? haa
    rw [respelled, generic_of_ne hname]
    cases hb with
    | @named name' bs _ hbs =>
      rw [respelled, generic_of_ne (name_ne_of_arrayElement? hba)]
      simp only [plainInto, respelledAll_eq, List.isEmpty_map, List.length_map, List.zip_map,
        List.all_map]
      congr 3
      refine all_congr_of_mem fun e he => ?_
      have hmem := List.of_mem_zip he
      have := size_le_sizeAll hmem.1
      have := size_le_sizeAll hmem.2
      simp only [size] at hn
      exact ih e.1 e.2 (has _ hmem.1) (hbs _ hmem.2) (by omega)
    | _ => rfl
  | union _ _ => rfl
  | array _ _ => rfl
  | literal _ => rfl
  | intersection here _ => exact here.elim
  | @interface i here props index =>
    cases hb with
    | named _ _ =>
      rw [respelled, respelled, generic_of_ne (name_ne_of_arrayElement? hba)]
      rfl
    | interface here' props' index' =>
      exact shapesSatisfy_respelled ih hn (.interface here props index)
        (.interface here' props' index')
    | _ => rfl
  | @function f _ params result =>
    cases hb with
    | named _ _ =>
      rw [respelled, respelled, generic_of_ne (name_ne_of_arrayElement? hba)]
      rfl
    | @function g _ params' result' =>
      simp only [size] at hn
      simp only [respelled, plainInto, respelledParams_eq, List.length_map, List.zip_map, List.all_map]
      have := size_pos f.result
      rw [ih f.result g.result result result' (by omega)]
      congr 2
      refine all_congr_of_mem fun e he => ?_
      have hmem := List.of_mem_zip he
      have := size_le_sizeParams hmem.1
      have := size_le_sizeParams hmem.2
      exact ih e.2.2 e.1.2 (params' _ hmem.2) (params _ hmem.1) (by omega)
    | _ => rfl
  | @classType c here members mixins superclass =>
    cases hb with
    | named _ _ =>
      rw [respelled, respelled, generic_of_ne (name_ne_of_arrayElement? hba)]
      rfl
    | interface here' props' index' =>
      exact shapesSatisfy_respelled ih hn (.classType here members mixins superclass)
        (.interface here' props' index')
    | @classType d here' members' mixins' superclass' =>
      have htarget : (classType d).Every Respellable := .classType here' members' mixins' superclass'
      exact classInto_respelled mixins superclass fun u hu hsize => ih u _ hu htarget (by omega)
    | _ => rfl

/-! ### Arrays -/

/-- No class or interface has the name of arrays. -/
theorem nominalName?_ne (h : t.Respellable) (hno : t.arrayElement? = none) :
    t.nominalName? ≠ some "Array" := by
  cases t with
  | named name args => simpa [nominalName?] using name_ne_of_arrayElement? hno
  | interface i => exact h.1
  | classType c => exact fun heq => h (Option.some.inj heq)
  | _ =>
    intro heq
    cases heq

theorem nominalName?_respelled (hno : t.arrayElement? = none) :
    t.respelled.nominalName? = t.nominalName? := by
  cases t with
  | named name args =>
    rw [respelled, generic_of_ne (name_ne_of_arrayElement? hno)]
    rfl
  | _ => rfl

/-- An array goes into nothing but arrays. -/
theorem plainInto_of_array_left {into : Ty → Ty → Bool} {e : Option Ty}
    (ha : a.arrayElement? = some e) (hb : b.nominalName? ≠ some "Array") :
    plainInto into a b = false := by
  cases a with simp only [arrayElement?, reduceCtorEq] at ha
  | array _ => cases b <;> rfl
  | named name args =>
    obtain ⟨rfl, -⟩ := Option.ite_none_right_eq_some.1 ha
    cases b with
    | named name' _ =>
      have hne : "Array" ≠ name' := fun heq => hb (congrArg some heq.symm)
      simp [plainInto, hne]
    | classType _ => simpa [plainInto] using hb
    | interface _ => simpa [plainInto] using hb
    | _ => rfl

/-- Nothing but arrays goes into an array. -/
theorem plainInto_of_array_right {into : Ty → Ty → Bool} {e : Option Ty}
    (ha : a.nominalName? ≠ some "Array") (hb : b.arrayElement? = some e) :
    plainInto into a b = false := by
  cases b with simp only [arrayElement?, reduceCtorEq] at hb
  | array _ => cases a <;> rfl
  | named name args =>
    obtain ⟨rfl, -⟩ := Option.ite_none_right_eq_some.1 hb
    cases a with
    | named name' _ =>
      have hne : name' ≠ "Array" := fun heq => ha (congrArg some heq)
      simp [plainInto, hne]
    | classType _ => simpa [plainInto] using ha
    | interface _ => simpa [plainInto] using ha
    | _ => rfl

theorem arraysInto_respelled (ih : RespelledBelow n) (hn : a.size + b.size ≤ n)
    (ha : a.Every Respellable) (hb : b.Every Respellable) :
    arraysInto isAssignableTo a.respelled b.respelled = arraysInto isAssignableTo a b := by
  unfold arraysInto
  rw [arrayElement?_respelled, arrayElement?_respelled]
  cases hea : a.arrayElement? with
  | none =>
    cases heb : b.arrayElement? with
    | none => exact plainInto_respelled ih hn ha hb hea heb
    | some e =>
      have hname := nominalName?_ne ha.here hea
      exact (plainInto_of_array_right (nominalName?_respelled hea ▸ hname)
        (by rw [arrayElement?_respelled, heb]; rfl)).trans (plainInto_of_array_right hname heb).symm
  | some e =>
    cases heb : b.arrayElement? with
    | none =>
      have hname := nominalName?_ne hb.here heb
      cases e <;> exact (plainInto_of_array_left (by rw [arrayElement?_respelled, hea]; rfl)
        (nominalName?_respelled heb ▸ hname)).trans (plainInto_of_array_left hea hname).symm
    | some f =>
      cases e with
      | none => cases f <;> rfl
      | some s =>
        cases f with
        | none => rfl
        | some t =>
          have := arrayElement?_size hea
          have := arrayElement?_size heb
          exact ih s t (ha.arrayElement? hea) (hb.arrayElement? heb) (by omega)

theorem elementInto_respelled (ih : RespelledBelow n) (hn : a.size + b.size ≤ n)
    (ha : a.Every Respellable) (hb : b.Every Respellable) :
    elementInto isAssignableTo a.respelled b.respelled = elementInto isAssignableTo a b := by
  have harrays := arraysInto_respelled ih hn ha hb
  cases ha with
  | intersection here _ => exact here.elim
  | @literal v _ => exact isNamed_respelled b (widenedName_ne v).2
  | @named name args _ _ =>
    rw [elementInto_eq_arraysInto (isIntersection_respelled _) (isLiteral_respelled _), harrays]
    rfl
  | _ => exact harrays

/-! ### Types that become equal -/

theorem all_zip_of_sameAll : ∀ {as bs : List Ty}, sameAll as bs = true →
    as.length = bs.length ∧ ∀ e ∈ as.zip bs, e.1.isAssignableTo e.2 = true
  | [], bs, h => by
    cases bs with simp only [sameAll, reduceCtorEq] at h
    | nil => exact ⟨rfl, nofun⟩
  | a :: as, bs, h => by
    cases bs with simp only [sameAll, reduceCtorEq, Bool.and_eq_true] at h
    | cons b bs =>
      obtain ⟨hlength, hall⟩ := all_zip_of_sameAll h.2
      simp only [List.length_cons, hlength, List.zip_cons_cons, List.forall_mem_cons, true_and]
      exact ⟨assignable_of_same h.1, hall⟩

theorem exists_same_of_mem_index {is js : List (IndexKey × Ty)} (h : sameIndex is js = true)
    {j : IndexKey × Ty} (hj : j ∈ js) : ∃ i ∈ is, i.1 = j.1 ∧ i.2.same j.2 = true := by
  induction js generalizing is with
  | nil => cases hj
  | cons j' js ih =>
    cases is with simp only [sameIndex, reduceCtorEq, Bool.and_eq_true, beq_iff_eq] at h
    | cons i is =>
      rcases List.mem_cons.1 hj with rfl | hj
      · exact ⟨i, List.mem_cons_self, h.1⟩
      · obtain ⟨i', hi', hsame⟩ := ih h.2 hj
        exact ⟨i', List.mem_cons_of_mem _ hi', hsame⟩

theorem find?_name_of_nodup {ps : List (Property Ty)} (h : (ps.map (·.name)).Nodup) {p : Property Ty}
    (hp : p ∈ ps) : ps.find? (·.name == p.name) = some p := by
  cases hfind : ps.find? (·.name == p.name) with
  | none => simpa using List.find?_eq_none.1 hfind p hp
  | some q =>
    have hname : q.name = p.name := by simpa using List.find?_some hfind
    rw [List.inj_on_of_nodup_map h (List.mem_of_find?_eq_some hfind) hp hname]

/-- An interface goes into an equal one property by property, if each property is named once. -/
theorem shapesSatisfy_of_same {i j : Interface Ty} (hnodup : (j.props.map (·.name)).Nodup)
    (hprops : sameProps i.props j.props = true) (hindex : sameIndex i.index j.index = true) :
    shapesSatisfy isAssignableTo (.interface i) (.interface j) = true := by
  simp only [shapesSatisfy, shape?, Shape.satisfies, Shape.property?_of_props, Bool.and_eq_true,
    List.all_eq_true, List.mem_map]
  refine ⟨?_, fun e he => ?_⟩
  · rintro _ ⟨q, hq, rfl⟩
    obtain ⟨p, hp, hsame⟩ := find?_of_sameProps hprops (find?_name_of_nodup hnodup hq)
    simpa [hp] using assignable_of_same hsame
  · obtain ⟨d, hd, hkey, hsame⟩ := exists_same_of_mem_index hindex he
    refine Bool.or_eq_true_iff.2 (.inl (List.any_eq_true.2 ⟨d, hd, ?_⟩))
    simp [hkey, assignable_of_same hsame]

/-- The rules let equal types into each other, also if equality does not decide. -/
theorem elementInto_of_same (ht : t.Respellable) (hu : s.isUnion = false)
    (hl : ¬(s.isLiteral = true ∧ t.isLiteral = true)) (h : s.same t = true) : elementInto isAssignableTo s t = true := by
  cases s with
  | union _ => cases hu
  | literal _ =>
    cases t with simp only [same, reduceCtorEq] at h
    | literal _ => exact absurd ⟨rfl, rfl⟩ hl
  | intersection _ =>
    cases t with simp only [same, reduceCtorEq] at h
    | intersection _ => exact ht.elim
  | named name as =>
    cases t with simp only [same, reduceCtorEq, Bool.and_eq_true, beq_iff_eq] at h
    | named name' bs =>
      obtain ⟨rfl, hargs⟩ := h
      simp only [elementInto, arrayElement?]
      by_cases hname : name = "Array"
      · -- by their first arguments
        simp only [if_pos hname]
        cases as with
        | nil => cases bs <;> rfl
        | cons x as =>
          cases bs with simp only [sameAll, reduceCtorEq, Bool.and_eq_true] at hargs
          | cons y bs => exact assignable_of_same hargs.1
      · obtain ⟨hlength, hall⟩ := all_zip_of_sameAll hargs
        simp only [if_neg hname, plainInto, Bool.and_eq_true, Bool.or_eq_true, beq_self_eq_true, true_and, beq_iff_eq]
        exact .inr ⟨hlength, List.all_eq_true.2 hall⟩
  | array a =>
    cases t with simp only [same, reduceCtorEq] at h
    | array b =>
      cases a with
      | none => cases b <;> rfl
      | some x =>
        cases b with
        | none => rfl
        | some y => exact assignable_of_same h
  | interface i =>
    cases t with simp only [same, reduceCtorEq, Bool.and_eq_true] at h
    | interface j => exact shapesSatisfy_of_same ht.2 h.1.2 h.2
  | function f =>
    cases t with simp only [same, reduceCtorEq, Bool.and_eq_true] at h
    | function g =>
      exact Bool.and_eq_true_iff.2
        ⟨all_zip_iff_paramsFrom.2 (paramsFrom_of_same h.1), assignable_of_same h.2⟩
  | classType c =>
    cases t with simp only [same, reduceCtorEq, Bool.and_eq_true] at h
    | classType d => simp [elementInto, arrayElement?, plainInto, beq_iff_eq.1 h.1.1.1]

/-! ### Assignability -/

theorem respellable_respelled (h : t.Respellable) : t.respelled.Respellable := by
  cases t with
  | named name args =>
    rcases respelled_named name args with h | ⟨-, e, h⟩ <;> rw [h] <;> trivial
  | interface i =>
    refine ⟨h.1, ?_⟩
    simp only [respelledProps_eq, List.map_map]
    exact h.2
  | _ => exact h

theorem isIntersection_of_respellable (h : t.Respellable) : t.isIntersection = false := by
  cases t with
  | intersection _ => exact h.elim
  | _ => rfl

/-- Types that neither equality nor a union decides about are compared by kind. -/
theorem assignable_iff_element (hs : s.isUnion = false) (ht : t.isUnion = false)
    (hi : t.isIntersection = false) (hsany : s.isAny = false) (htany : t.isAny = false)
    (hsame : s.same t = true → elementInto isAssignableTo s t = true) :
    s.isAssignableTo t = elementInto isAssignableTo s t := by
  rw [Bool.eq_iff_iff]
  refine ⟨fun h => ?_, assignable_of_element hs ht hi⟩
  exact (same_or_element_of_assignable hs ht hi hsany htany h).elim hsame id

/-- One step of the induction. -/
theorem respelledBelow_succ (ih : RespelledBelow n) : RespelledBelow (n + 1) := by
  intro a b ha hb hn
  have hn := Nat.le_of_lt_succ hn
  by_cases hany : a.isAny = true ∨ b.isAny = true
  · rw [assignable_of_isAny hany, assignable_of_isAny (by rwa [isAny_respelled, isAny_respelled])]
  simp only [not_or, Bool.not_eq_true] at hany
  by_cases hau : a.isUnion = true
  · cases ha with
    | @union as here parts =>
      rw [Bool.eq_iff_iff, respelled, respelledAll_eq, union_assignable_iff, union_assignable_iff,
        List.forall_mem_map]
      refine forall₂_congr fun m hm => ?_
      have := size_le_sizeAll hm
      simp only [size] at hn
      rw [ih m b (parts m hm) hb (by omega)]
    | _ => cases hau
  rw [Bool.not_eq_true] at hau
  have hau' := isUnion_respelled a ▸ hau
  have hany' := isAny_respelled a ▸ hany.1
  by_cases hbu : b.isUnion = true
  · cases hb with
    | @union bs here parts =>
      rw [Bool.eq_iff_iff, respelled, respelledAll_eq, assignable_union_iff hau' hany',
        assignable_union_iff hau hany.1]
      simp only [List.mem_map, exists_exists_and_eq_and]
      refine exists_congr fun m => and_congr_right fun hm => ?_
      have := size_le_sizeAll hm
      simp only [size] at hn
      rw [ih a m ha (parts m hm) (by omega)]
    | _ => cases hbu
  rw [Bool.not_eq_true] at hbu
  have hbu' := isUnion_respelled b ▸ hbu
  by_cases hl : a.isLiteral = true ∧ b.isLiteral = true
  · -- literals are spelled in one way
    cases ha with
    | literal _ =>
      cases hb with
      | literal _ => rfl
      | _ => cases hl.2
    | _ => cases hl.1
  · have hb' := respellable_respelled hb.here
    rw [assignable_iff_element hau' hbu' (isIntersection_of_respellable hb') hany'
        (isAny_respelled b ▸ hany.2)
        (elementInto_of_same hb' hau' (by rwa [isLiteral_respelled, isLiteral_respelled])),
      assignable_iff_element hau hbu (isIntersection_of_respellable hb.here) hany.1 hany.2
        (elementInto_of_same hb.here hau hl)]
    exact elementInto_respelled ih hn ha hb

theorem respelledBelow (n : Nat) : RespelledBelow n := by
  induction n with
  | zero => exact fun a b _ _ hn => absurd hn (Nat.not_lt_zero _)
  | succ n ih => exact respelledBelow_succ ih

/-- To respell the arrays in two types does not change whether one goes into the other. -/
theorem isAssignableTo_respelled (hs : s.Every Respellable) (ht : t.Every Respellable) :
    s.respelled.isAssignableTo t.respelled = s.isAssignableTo t :=
  respelledBelow _ s t hs ht (Nat.lt_succ_self _)

/-- Rows of numbers, where the spelling of the rows and of a single row is as given. -/
def table (rows row : Ty → Ty) : Ty :=
  .interface ⟨some "Table", [⟨"rows", rows (row (union [int, float])), true⟩], []⟩

theorem every_table {rows row : Ty → Ty} (hrows : ∀ t : Ty, t.Every Respellable → (rows t).Every Respellable)
    (hrow : ∀ t : Ty, t.Every Respellable → (row t).Every Respellable) :
    (table rows row).Every Respellable := by
  have hnames : ∀ name, (singular name).Every Respellable := fun _ => .named trivial (by simp)
  have hnumber : (union [int, float]).Every Respellable :=
    .union trivial (by simpa using ⟨hnames "int", hnames "float"⟩)
  refine .interface ⟨by simp, by simp⟩ ?_ (by simp)
  simpa using hrows _ (hrow _ hnumber)

/-- The two differ as values and are equal when they are respelled. -/
theorem isAssignableTo_respelled_tables :
    let bracketed : Ty → Ty := fun t => .array (some t)
    let named : Ty → Ty := fun t => .named "Array" [t]
    (table bracketed named).same (table named bracketed) = false ∧
      (table bracketed named).respelled.same (table named bracketed).respelled = true ∧
        (table bracketed named).isAssignableTo (table named bracketed) = true := by
  have hbracketed : ∀ t : Ty, t.Every Respellable → (array (some t)).Every Respellable :=
    fun t ht => .array trivial (by simpa using ht)
  have hnamed : ∀ t : Ty, t.Every Respellable → (Ty.named "Array" [t]).Every Respellable :=
    fun t ht => .named trivial (by simpa using ht)
  refine ⟨by decide, by decide, ?_⟩
  rw [← isAssignableTo_respelled (every_table hbracketed hnamed) (every_table hnamed hbracketed)]
  exact assignable_of_same (by decide)

end Ty

end ScriptCheck
