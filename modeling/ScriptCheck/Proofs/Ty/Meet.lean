import ScriptCheck.Proofs.Ty.Merging

/-!
Intersections are below their members. A type that goes into a target without being taken apart is followed
there by every intersection it is a member of. A union that is split over a union is not: a union as a target
wants one of its own members to take all of the source. And a type that is an intersection itself is opened,
so that its members stand for it: what went by the shape they have together goes on only if the shape of all
the types still satisfies the target.
-/

namespace ScriptCheck

namespace Ty

variable {s t u m p : Ty} {ts ms : List Ty} {P Q : Ty → Prop}

/-! ### Entering as a whole -/

/-- A type that a target is made of by unions and intersections, and that is neither of them. -/
inductive LeafOf (u : Ty) : Ty → Prop
  | self (hu : u.isUnion = false) (hi : u.isIntersection = false) : LeafOf u u
  | union {ts : List Ty} {t : Ty} (ht : t ∈ ts) (h : LeafOf u t) : LeafOf u (.union ts)
  | intersection {ts : List Ty} {t : Ty} (ht : t ∈ ts) (h : LeafOf u t) : LeafOf u (.intersection ts)

/-- A way into a target on which nothing is taken apart but the target: into one member of a union, into all
members of an intersection, and into any other type if this may be entered. -/
inductive Through (P : Ty → Prop) : Ty → Prop
  | plain {t : Ty} (hu : t.isUnion = false) (hi : t.isIntersection = false) (h : P t) : Through P t
  | union {ts : List Ty} {t : Ty} (ht : t ∈ ts) (h : Through P t) : Through P (.union ts)
  | intersection {ts : List Ty} (h : ∀ t ∈ ts, Through P t) : Through P (.intersection ts)

theorem Through.imp (h : Through P t) (himp : ∀ u, u.LeafOf t → P u → Q u) : Through Q t := by
  induction h with
  | plain hu hi h => exact .plain hu hi (himp _ (.self hu hi) h)
  | union ht _ ih => exact .union ht (ih fun u hu => himp u (.union ht hu))
  | intersection _ ih => exact .intersection fun t ht => ih t ht fun u hu => himp u (.intersection ht hu)

theorem LeafOf.plain (h : u.LeafOf t) : u.isUnion = false ∧ u.isIntersection = false := by
  induction h with
  | self hu hi => exact ⟨hu, hi⟩
  | union _ _ ih | intersection _ _ ih => exact ih

/-- An intersection goes into a type that is neither a union nor an intersection with one of its members, or by
the shape that its members have together. -/
theorem intersection_assignable_iff (hu : t.isUnion = false) (hi : t.isIntersection = false) :
    (intersection ms).isAssignableTo t = true ↔ t.isAny = true ∨ (∃ p ∈ ms, p.isAssignableTo t = true) ∨
      shapesSatisfy isAssignableTo (.intersection ms) t = true := by
  have helement : elementInto isAssignableTo (.intersection ms) t = true ↔
      (∃ p ∈ ms, p.isAssignableTo t = true) ∨ shapesSatisfy isAssignableTo (.intersection ms) t = true := by
    rw [elementInto, Bool.or_eq_true, List.any_eq_true]
  constructor
  · intro h
    cases hany : t.isAny with
    | true => exact .inl rfl
    | false =>
      rcases same_or_element_of_assignable rfl hu hi rfl hany h with hsame | hinto
      · have hkind := Akin.isIntersection (.inr hsame)
        rw [hi] at hkind
        cases hkind
      · exact .inr (helement.1 hinto)
  · rintro (hany | hinto)
    · exact assignable_of_isAny (.inr hany)
    · exact assignable_of_element rfl hu hi (helement.2 hinto)

/-- A type goes into another one without being taken apart. -/
def EntersWhole (s t : Ty) : Prop := Through (fun u => s.isAssignableTo u = true) t

namespace EntersWhole

theorem akin (h : s.EntersWhole t) (hsu : s.Akin u) : u.EntersWhole t :=
  h.imp fun _ _ => hsu.assignable_left

theorem of_union (h : (Ty.union ms).EntersWhole t) (hm : m ∈ ms) : m.EntersWhole t :=
  h.imp fun _ _ h => union_assignable_iff.1 h m hm

/-- An intersection enters where one of its members does. -/
theorem of_mem (hm : m ∈ ms) (h : m.EntersWhole t) : (Ty.intersection ms).EntersWhole t :=
  h.imp fun _ hu h => (intersection_assignable_iff hu.plain.1 hu.plain.2).2 (.inr (.inl ⟨m, hm, h⟩))

theorem assignable_of_not_union (h : s.EntersWhole t) (hs : s.isUnion = false) :
    s.isAssignableTo t = true := by
  induction h with
  | plain _ _ h => exact h
  | union ht _ ih => exact assignable_union hs ht ih
  | intersection _ ih => exact assignable_intersection hs ih

/-- What enters as a whole is assignable. -/
theorem assignable (h : s.EntersWhole t) : s.isAssignableTo t = true := by
  induction s using induction_on_members with
  | plain s hs _ => exact h.assignable_of_not_union hs
  | union ms ih => exact union_assignable fun m hm => ih m hm (h.of_union hm)
  | intersection ms _ => exact h.assignable_of_not_union rfl

end EntersWhole

/-! ### What enters as a whole -/

/-- What is neither a union nor `any` enters as a whole, if it enters so what it is equal to. -/
theorem entersWhole_of_same (hu : s.isUnion = false) (hany : s.isAny = false)
    (hsame : ∀ t, s.same t = true → s.EntersWhole t) (h : s.isAssignableTo t = true) : s.EntersWhole t := by
  induction t using induction_on_members with
  | plain t hu' hi' => exact .plain hu' hi' h
  | union ts ih =>
    obtain ⟨t, ht, hinto⟩ := exists_of_assignable_union hu hany h
    exact .union ht (ih t ht hinto)
  | intersection ts ih =>
    rcases same_or_of_assignable_intersection hu hany h with hequal | hall
    · exact hsame _ hequal
    · exact .intersection fun t ht => ih t ht (hall t ht)

/-- What is neither a union nor an intersection nor `any` cannot be taken apart. -/
theorem entersWhole_of_plain (hu : s.isUnion = false) (hi : s.isIntersection = false)
    (hany : s.isAny = false) (h : s.isAssignableTo t = true) : s.EntersWhole t := by
  refine entersWhole_of_same hu hany (fun t hsame => ?_) h
  have hakin : t.Akin s := Akin.symm (.inr hsame)
  exact .plain (hakin.isUnion.trans hu) (hakin.isIntersection.trans hi) (assignable_of_same hsame)

/-- A type that offers no choice: no union, nor an intersection of one. -/
inductive Undivided : Ty → Prop
  | plain {t : Ty} (hu : t.isUnion = false) (hi : t.isIntersection = false) : Undivided t
  | intersection {ts : List Ty} (h : ∀ t ∈ ts, Undivided t) : Undivided (.intersection ts)

theorem Undivided.intersectionMembers (h : t.Undivided) : ∀ u ∈ t.intersectionMembers, u.Undivided := by
  cases h with
  | intersection h => exact h
  | plain hu hi =>
    cases t with
    | intersection => cases hi
    | _ => exact List.forall_mem_singleton.2 (.plain hu hi)

/-- What goes into an intersection goes into a member of it that offers no choice. -/
theorem assignable_member (ht : t ∈ ts) (hwhole : ∀ s : Ty, s.isAssignableTo t = true → s.EntersWhole t)
    (h : s.isAssignableTo (.intersection ts) = true) : s.isAssignableTo t = true := by
  induction s using induction_on_members with
  | plain s hu hi =>
    cases hany : s.isAny with
    | true => exact assignable_of_isAny (.inl hany)
    | false =>
      cases entersWhole_of_plain hu hi hany h with
      | plain _ hi' => cases hi'
      | intersection hall => exact EntersWhole.assignable (hall t ht)
  | union ms ih => exact union_assignable fun m hm => ih m hm (union_assignable_iff.1 h m hm)
  | intersection ms _ =>
    rcases same_or_of_assignable_intersection rfl rfl h with hsame | hall
    · -- an equal intersection has a member that is equal to this one
      obtain ⟨m, hm, hmt⟩ := exists_same_of_mem hsame ht
      exact (EntersWhole.of_mem hm (hwhole m (assignable_of_same hmt))).assignable
    · exact hall t ht

/-- Where there is no choice, everything enters as a whole. -/
theorem Undivided.entersWhole (ht : t.Undivided) (h : s.isAssignableTo t = true) : s.EntersWhole t := by
  induction ht generalizing s with
  | plain hu hi => exact .plain hu hi h
  | intersection _ ih =>
    refine .intersection fun t ht => ih t ht ?_
    exact assignable_member ht (fun _ => ih t ht) h

theorem Undivided.isUnion (h : t.Undivided) : t.isUnion = false := by
  cases h with
  | plain hu _ => exact hu
  | intersection _ => rfl

theorem Undivided.same (h : s.Undivided) (hst : s.same t = true) : t.Undivided := by
  induction h generalizing t with
  | plain hu hi =>
    have hakin := Akin.symm (.inr hst)
    exact .plain (hakin.isUnion.trans hu) (hakin.isIntersection.trans hi)
  | intersection _ ih =>
    cases t with simp only [Ty.same, reduceCtorEq] at hst
    | intersection ts =>
      refine .intersection fun t ht => ?_
      obtain ⟨s, hs, hsame⟩ := exists_same_of_mem hst ht
      exact ih s hs hsame

/-- What offers no choice enters as a whole, unless it is `any`, which goes into a union of nothing. -/
theorem Undivided.entersWhole_of (hs : s.Undivided) (hany : s.isAny = false) (h : s.isAssignableTo t = true) :
    s.EntersWhole t :=
  entersWhole_of_same hs.isUnion hany (fun _ hsame => (hs.same hsame).entersWhole (assignable_of_same hsame)) h

/-! ### The intersection of types -/

/-- The intersection of types enters where one of their members does. -/
theorem intersectionOf_entersWhole (hm : m ∈ ms) (hp : p ∈ m.intersectionMembers) (h : p.EntersWhole t) :
    (intersectionOf ms).EntersWhole t := by
  obtain ⟨u, hu, hup⟩ := exists_mem_distinct (List.mem_flatMap.2 ⟨m, hm, hp⟩)
  have hwhole := h.akin (Akin.symm hup)
  unfold intersectionOf
  rcases gather_cases intersectionMembers .intersection ms with ⟨q, hone, hall⟩ | ⟨-, hall⟩
  · rw [hone, List.mem_singleton] at hu
    rw [hall]
    exact hu ▸ hwhole
  · rw [hall]
    exact .of_mem hu hwhole

/-! ### Merged shapes -/

/-- An intersection among the types goes into the target by the shape its members have together, and this is
lost where the types are opened: no opened member goes into the target, and neither does, if more than one
is left, the shape that all the types have together. -/
structure LosesShape (ms : List Ty) (m t : Ty) : Prop where
  merged : m.isIntersection = true
  entered : shapesSatisfy isAssignableTo m t = true
  members : ∀ n ∈ ms, ∀ p ∈ n.intersectionMembers, p.isAssignableTo t = false
  shape : (distinct (ms.flatMap intersectionMembers)).length ≠ 1 →
    shapesSatisfy isAssignableTo (.intersection ms) t = false

theorem not_isAny_of_shapesSatisfy (h : shapesSatisfy isAssignableTo s t = true) : t.isAny = false := by
  cases t with
  | named name args =>
    have hnone : (named name args).shape? = none := rfl
    simp [shapesSatisfy, hnone] at h
  | _ => rfl

/-- At a target that is neither a union nor an intersection, the intersection of types follows a member exactly
if the shape of this is not lost. -/
theorem intersectionOf_assignable_iff (hm : m ∈ ms) (hu : t.isUnion = false) (hi : t.isIntersection = false)
    (h : m.isAssignableTo t = true) : (intersectionOf ms).isAssignableTo t = true ↔ ¬LosesShape ms m t := by
  have hmember : ∀ n ∈ ms, ∀ p ∈ n.intersectionMembers, p.isAssignableTo t = true →
      (intersectionOf ms).isAssignableTo t = true :=
    fun n hn p hp hinto => (intersectionOf_entersWhole hn hp (.plain hu hi hinto)).assignable
  constructor
  · intro hinto hlost
    have hopened : ∀ p ∈ distinct (ms.flatMap intersectionMembers), p.isAssignableTo t = false := by
      intro p hp
      obtain ⟨n, hn, hp⟩ := List.mem_flatMap.1 (mem_of_mem_distinct hp)
      exact hlost.members n hn p hp
    rcases gather_cases intersectionMembers .intersection ms with ⟨p, hone, hall⟩ | ⟨hmany, hall⟩
    · rw [intersectionOf, hall, hopened p (hone ▸ List.mem_cons_self)] at hinto
      cases hinto
    · rw [intersectionOf, hall, intersection_assignable_iff hu hi, shapesSatisfy_opened, hlost.shape hmany,
        not_isAny_of_shapesSatisfy hlost.entered] at hinto
      rcases hinto with hany | ⟨p, hp, hinto⟩ | hshape
      · cases hany
      · rw [hopened p hp] at hinto
        cases hinto
      · cases hshape
  · intro hkept
    cases m with
    | intersection ps =>
      rcases (intersection_assignable_iff hu hi).1 h with hany | ⟨p, hp, hinto⟩ | hentered
      · exact assignable_of_isAny (.inr hany)
      · exact hmember _ hm p hp hinto
      · by_contra hno
        refine hkept ⟨rfl, hentered, fun n hn p hp => ?_, fun hmany => Bool.eq_false_iff.2 fun hshape => hno ?_⟩
        · exact Bool.eq_false_iff.2 fun hinto => hno (hmember n hn p hp hinto)
        · rcases gather_cases intersectionMembers .intersection ms with ⟨p, hone, -⟩ | ⟨-, hall⟩
          · exact absurd (hone ▸ rfl) hmany
          · rw [intersectionOf, hall, intersection_assignable_iff hu hi, shapesSatisfy_opened]
            exact .inr (.inr hshape)
    | _ => exact hmember _ hm _ List.mem_cons_self h

/-- Around an intersection that goes into a target by the shape of its members, the other types leave this as it
is: all have a shape, and what those in front of it show for a property or a key that the target asks for goes
there too. Where the target asks for a type for all names and the intersection has none that goes there, so
does all that the others show. -/
structure Unspoilt (front back : List Ty) (m : Ty) (asked : Shape) : Prop where
  shaped : Shaped (front ++ back)
  props : ∀ q ∈ asked.props, ∀ n ∈ front, ∀ v, n.shown? q.1 = some v → v.isAssignableTo q.2 = true
  index : ∀ i ∈ asked.index, ∀ n ∈ front, ∀ v, n.shownSignature? i.1 = some v → v.isAssignableTo i.2 = true
  names : ∀ i ∈ asked.index, i.1 = .string →
    (∃ v, m.shownSignature? .string = some v ∧ v.isAssignableTo i.2 = true) ∨
      ∀ n ∈ front ++ back, ∀ name v, n.shown? name = some v → v.isAssignableTo i.2 = true

/-- The first answer is the one of a type, or of one in front of it. -/
theorem exists_findSome?_append {g : Ty → Option Ty} {front back : List Ty}
    (hfront : ∀ n ∈ front, ∀ v, g n = some v → P v) (hm : ∃ v, g m = some v ∧ P v) :
    ∃ v, (front ++ m :: back).findSome? g = some v ∧ P v := by
  rw [List.findSome?_append]
  cases hfound : front.findSome? g with
  | some v =>
    obtain ⟨n, hn, hv⟩ := List.exists_of_findSome?_eq_some hfound
    exact ⟨v, rfl, hfront n hn v hv⟩
  | none =>
    obtain ⟨v, hv, hP⟩ := hm
    exact ⟨v, by rw [Option.none_or, List.findSome?_cons, hv], hP⟩

/-- An unspoilt intersection offers all that is asked of it together with the other types, too. -/
theorem Unspoilt.offers {front back : List Ty} {asked : Shape} (h : Unspoilt front back m asked)
    (hall : Shaped (front ++ m :: back)) (hoffers : Shape.Offers m.shown? m.shownSignature? asked) :
    Shape.Offers (intersection (front ++ m :: back)).shown?
      (intersection (front ++ m :: back)).shownSignature? asked := by
  have hnames := shown?_intersection hall
  have hkeys := shownSignature?_intersection hall
  refine ⟨fun q hq => ?_, fun i hi => ?_⟩
  · rw [hnames]
    exact exists_findSome?_append (h.props q hq) (hoffers.props q hq)
  · rw [hkeys]
    rcases hoffers.index i hi with hkey | ⟨hstring, hown⟩
    · exact .inl (exists_findSome?_append (h.index i hi) hkey)
    · rcases h.names i hi hstring with hkey | hothers
      · exact .inl (exists_findSome?_append (h.index i hi) (hstring ▸ hkey))
      · refine .inr ⟨hstring, fun name v hv => ?_⟩
        rw [hnames] at hv
        obtain ⟨n, hn, hshown⟩ := List.exists_of_findSome?_eq_some hv
        rcases List.mem_append.1 hn with hfront | hrest
        · exact hothers n (List.mem_append_left _ hfront) name v hshown
        · rcases List.mem_cons.1 hrest with rfl | hback
          · exact hown name v hshown
          · exact hothers n (List.mem_append_right _ hback) name v hshown

theorem Unspoilt.not_losesShape {front back : List Ty} {asked : Shape} (h : Unspoilt front back m asked)
    (hasked : t.shape? = some asked)
    (hmany : (distinct ((front ++ m :: back).flatMap intersectionMembers)).length ≠ 1) :
    ¬LosesShape (front ++ m :: back) m t := by
  intro hlost
  obtain ⟨ps, rfl⟩ : ∃ ps, m = .intersection ps := by
    have hmerged := hlost.merged
    cases m with
    | intersection ps => exact ⟨ps, rfl⟩
    | _ => cases hmerged
  obtain ⟨hshaped, own, hown, hoffers⟩ := shapesSatisfy_intersection_iff.1 hlost.entered
  obtain rfl : asked = own := Option.some.inj (hasked.symm.trans hown)
  have hall : Shaped (front ++ .intersection ps :: back) := by
    have hothers := List.forall_mem_append.1 h.shaped
    exact List.forall_mem_append.2 ⟨hothers.1,
      List.forall_mem_cons.2 ⟨isSome_shape?_intersection.2 hshaped, hothers.2⟩⟩
  have htogether : shapesSatisfy isAssignableTo (.intersection (front ++ .intersection ps :: back)) t = true :=
    shapesSatisfy_intersection_iff.2 ⟨hall, asked, hasked, h.offers hall hoffers⟩
  rw [hlost.shape hmany] at htogether
  cases htogether

/-! ### Where the intersection goes -/

/-- If a member is all that is left of the types, the intersection goes wherever it goes. -/
theorem intersectionOf_akin
    (hsame : sameAll (distinct (ms.flatMap intersectionMembers)) m.intersectionMembers = true)
    (hone : ∀ q, m ≠ .intersection [q]) : (intersectionOf ms).Akin m := by
  have hlength : (distinct (ms.flatMap intersectionMembers)).length = m.intersectionMembers.length :=
    (forall₂_of_sameAll hsame).length_eq
  rcases gather_cases intersectionMembers .intersection ms with ⟨p, hp, hall⟩ | ⟨hmany, hall⟩
  · rw [intersectionOf, hall]
    rw [hp] at hsame
    cases m with
    | intersection ps =>
      obtain ⟨q, rfl⟩ : ∃ q, ps = [q] := List.length_eq_one_iff.1 (hlength.symm.trans (by rw [hp]; rfl))
      exact absurd rfl (hone q)
    | _ =>
      simp only [intersectionMembers, sameAll, Bool.and_true] at hsame
      exact .inr hsame
  · rw [intersectionOf, hall]
    cases m with
    | intersection ps => exact .inr hsame
    | _ => exact absurd hlength hmany

/-- A type in which no literal is NaN. -/
def NanFree (t : Ty) : Prop := t.Every (· ≠ .literal (.float .nan))

theorem NanFree.assignable_self (h : t.NanFree) : t.isAssignableTo t = true := by
  refine assignable_of_same (same_self_of_every ?_ h)
  rintro _ hne rfl
  exact hne rfl

/-- The intersection of types goes into each of them that offers no choice. -/
theorem intersectionOf_entersMember (hm : m ∈ ms) (hnan : m.NanFree) (hundivided : m.Undivided) :
    (intersectionOf ms).isAssignableTo m = true := by
  have hmembers : ∀ p ∈ m.intersectionMembers, (intersectionOf ms).EntersWhole p := by
    intro p hp
    have hself : p.isAssignableTo p = true := NanFree.assignable_self (hnan.intersectionMembers p hp)
    exact intersectionOf_entersWhole hm hp ((hundivided.intersectionMembers p hp).entersWhole hself)
  cases hundivided with
  | intersection => exact EntersWhole.assignable (.intersection hmembers)
  | plain _ hi =>
    cases m with
    | intersection => cases hi
    | _ => exact (hmembers _ List.mem_cons_self).assignable

/-- The intersection of types follows a member into a target that this enters as a whole, by way of types where
the shape of the member is not lost, if it goes by that. At a type that is neither a union nor an intersection
this is exactly so, and another member may be followed at each. Members are taken apart only if they are `any`
or a choice of types and the target is one, too; and a shape is not lost if what the other types show fits the
target as well. If the other types add nothing to a member, the intersection goes wherever it goes; and it goes
into each of the types that offers no choice. -/
theorem intersectionOf_below (ms : List Ty) (m : Ty) (hm : m ∈ ms) :
    (∀ t : Ty, t.isUnion = false → t.isIntersection = false → m.isAssignableTo t = true →
      ((intersectionOf ms).isAssignableTo t = true ↔ ¬LosesShape ms m t)) ∧
    (∀ t, Through (fun u => ∃ n ∈ ms, n.isAssignableTo u = true ∧ ¬LosesShape ms n u) t →
      (intersectionOf ms).isAssignableTo t = true) ∧
    (∀ t, m.isAssignableTo t = true → (m.Undivided ∧ m.isAny = false) ∨ t.Undivided →
      (∀ u, u.LeafOf t → ¬LosesShape ms m u) → (intersectionOf ms).isAssignableTo t = true) ∧
    (∀ front back, ms = front ++ m :: back → (distinct (ms.flatMap intersectionMembers)).length ≠ 1 →
      ∀ t asked, t.shape? = some asked → Unspoilt front back m asked → ¬LosesShape ms m t) ∧
    (sameAll (distinct (ms.flatMap intersectionMembers)) m.intersectionMembers = true →
      (∀ q, m ≠ .intersection [q]) →
      ∀ t, m.isAssignableTo t = true → (intersectionOf ms).isAssignableTo t = true) ∧
    (m.NanFree → m.Undivided → (intersectionOf ms).isAssignableTo m = true) := by
  have hthrough : ∀ t, Through (fun u => ∃ n ∈ ms, n.isAssignableTo u = true ∧ ¬LosesShape ms n u) t →
      (intersectionOf ms).isAssignableTo t = true := by
    intro t h
    have hwhole : (intersectionOf ms).EntersWhole t := h.imp fun u hu ⟨n, hn, hinto, hkept⟩ =>
      (intersectionOf_assignable_iff hn hu.plain.1 hu.plain.2 hinto).2 hkept
    exact hwhole.assignable
  refine ⟨fun t hu hi => intersectionOf_assignable_iff hm hu hi, hthrough, ?_, ?_, ?_,
    intersectionOf_entersMember hm⟩
  · intro t h hundivided hkept
    have hwhole : m.EntersWhole t := by
      rcases hundivided with ⟨hm, hany⟩ | ht
      · exact hm.entersWhole_of hany h
      · exact ht.entersWhole h
    exact hthrough t (hwhole.imp fun u hu hinto => ⟨m, hm, hinto, hkept u hu⟩)
  · rintro front back rfl hmany t asked hasked hunspoilt
    exact hunspoilt.not_losesShape hasked hmany
  · intro hsame hone t h
    exact (Akin.symm (intersectionOf_akin hsame hone)).assignable_left h

/-- An object with the given properties. -/
def object (props : List (String × Ty)) : Ty := .interface ⟨none, props.map fun p => ⟨p.1, p.2, true⟩, []⟩

theorem every_object {P : Ty → Prop} {props : List (String × Ty)} (here : P (object props))
    (h : ∀ p ∈ props, p.2.Every P) : (object props).Every P := by
  refine .interface here (fun p hp => ?_) nofun
  obtain ⟨q, hq, rfl⟩ := List.mem_map.1 hp
  exact h q hq

theorem every_singular {P : Ty → Prop} {name : String} (here : P (singular name)) :
    (singular name).Every P := .named here (List.forall_mem_nil _)

theorem nanFree_singular (name : String) : (singular name).NanFree := every_singular nofun

/-- Two objects in one. -/
def twoObjects : Ty := .intersection [object [("a", int)], object [("b", int)]]

theorem nanFree_twoObjects : twoObjects.NanFree := by
  refine .intersection nofun (List.forall_mem_cons.2 ⟨?_, List.forall_mem_singleton.2 ?_⟩) <;>
    exact every_object nofun (List.forall_mem_singleton.2 (nanFree_singular _))

theorem undivided_twoObjects : twoObjects.Undivided :=
  .intersection (List.forall_mem_cons.2 ⟨.plain rfl rfl, List.forall_mem_singleton.2 (.plain rfl rfl)⟩)

/-- The two objects keep their shape beside a third. Beside a number they go on one by one, and the number goes
on; and a choice goes into itself if it is all there is. -/
theorem intersectionOf_below_objects :
    (intersectionOf [twoObjects, object [("c", int)]]).isAssignableTo
        (object [("a", int), ("b", int)]) = true ∧
      (intersectionOf [twoObjects, int]).isAssignableTo
        (.intersection [object [("a", number)], object [("b", number)]]) = true ∧
      (intersectionOf [twoObjects, int]).isAssignableTo number = true ∧
      (intersectionOf [twoObjects, int]).isAssignableTo twoObjects = true ∧
      (intersectionOf [number, number]).isAssignableTo number = true := by
  obtain ⟨-, -, hfollows, hkept, -, -⟩ :=
    intersectionOf_below [twoObjects, object [("c", int)]] twoObjects List.mem_cons_self
  obtain ⟨-, hthrough, -, -, -, hown⟩ := intersectionOf_below [twoObjects, int] twoObjects List.mem_cons_self
  obtain ⟨-, -, -, -, halone, -⟩ := intersectionOf_below [number, number] number List.mem_cons_self
  have hint : int ∈ [twoObjects, int] := List.mem_cons_of_mem _ List.mem_cons_self
  refine ⟨?_, hthrough _ (.intersection (List.forall_mem_cons.2 ⟨?_, List.forall_mem_singleton.2 ?_⟩)),
    hthrough _ ?_, hown nanFree_twoObjects undivided_twoObjects,
    halone (by decide +kernel) nofun _ (by decide +kernel)⟩
  · refine hfollows _ (by decide +kernel) (.inl ⟨undivided_twoObjects, rfl⟩) fun u hu => ?_
    cases hu
    exact hkept [] [object [("c", int)]] rfl (by decide +kernel) _ _ rfl
      ⟨List.forall_mem_singleton.2 rfl, fun _ _ => nofun, nofun, nofun⟩
  · refine .plain rfl rfl ⟨twoObjects, List.mem_cons_self, by decide +kernel, fun hlost => ?_⟩
    exact absurd (hlost.members _ List.mem_cons_self (object [("a", int)]) List.mem_cons_self)
      (by decide +kernel)
  · refine .plain rfl rfl ⟨twoObjects, List.mem_cons_self, by decide +kernel, fun hlost => ?_⟩
    exact absurd (hlost.members _ List.mem_cons_self (object [("b", int)])
      (List.mem_cons_of_mem _ List.mem_cons_self)) (by decide +kernel)
  · refine .union List.mem_cons_self (.plain rfl rfl ⟨int, hint, by decide +kernel, fun hlost => ?_⟩)
    cases hlost.merged

/-- The two objects have one shape, which is lost beside a number and hidden behind another property; and a
union beside an object is not taken apart again, so that it does not go into itself. -/
theorem intersectionOf_not_below :
    (∀ t ∈ [twoObjects, int, object [("a", string)], unionOf [int, string]], t.NanFree) ∧
      twoObjects.isAssignableTo (object [("a", int), ("b", int)]) = true ∧
      (intersectionOf [twoObjects, int]).isAssignableTo (object [("a", int), ("b", int)]) = false ∧
      (intersectionOf [object [("a", string)], twoObjects]).isAssignableTo
        (object [("a", int), ("b", int)]) = false ∧
      (intersectionOf [unionOf [int, string], object [("a", string)]]).isAssignableTo
        (unionOf [int, string]) = false := by
  refine ⟨?_, by decide +kernel, by decide +kernel, by decide +kernel, by decide +kernel⟩
  have hunion : (unionOf [int, string]).NanFree := every_unionOf (List.forall_mem_cons.2
    ⟨nanFree_singular _, List.forall_mem_singleton.2 (nanFree_singular _)⟩) fun _ => nofun
  simp only [List.forall_mem_cons]
  exact ⟨nanFree_twoObjects, nanFree_singular _,
    every_object nofun (List.forall_mem_singleton.2 (nanFree_singular _)), hunion, List.forall_mem_nil _⟩

end Ty

end ScriptCheck
