import Mathlib.Data.List.Find
import ScriptCheck.Proofs.Ty.Join

/-!
Merged shapes. A merge of shapes is known by what is looked up in it: the first shape that has an answer gives
it. So what an intersection shows does not depend on whether the intersections among its members are opened,
nor on members that are repeated.
-/

namespace ScriptCheck

namespace Shape

/-- The type behind a key of the index signatures. -/
def signature? (s : Shape) (key : IndexKey) : Option Ty := (s.index.find? (·.1 == key)).map Prod.snd

section

variable {κ : Type} [DecidableEq κ] {as es : List (κ × Ty)}

/-- What is added behind entries is found if none of them has its key. -/
theorem find?_foldl_addNew (key : κ) (es as : List (κ × Ty)) :
    (es.foldl addNew as).find? (·.1 == key) = (as.find? (·.1 == key)).or (es.find? (·.1 == key)) := by
  induction es generalizing as with
  | nil => simp
  | cons e es ih =>
    rw [List.foldl_cons, ih]
    unfold addNew
    split
    · rename_i hknown
      by_cases hkey : e.1 = key
      · -- the entry is left out because its key is there
        have hsome : (as.find? (·.1 == key)).isSome = true := by
          rw [List.find?_isSome]
          simpa [hkey] using hknown
        obtain ⟨a, ha⟩ := Option.isSome_iff_exists.1 hsome
        simp [ha]
      · simp [hkey]
    · rw [List.find?_append, Option.or_assoc]
      congr 1
      by_cases hkey : e.1 = key <;> simp [hkey]

/-- Entries of which no two have the same key. -/
def Keyed (es : List (κ × Ty)) : Prop := (es.map Prod.fst).Nodup

theorem Keyed.addNew (h : Keyed as) (e : κ × Ty) : Keyed (Shape.addNew as e) := by
  unfold Shape.addNew
  split
  · exact h
  · rename_i hnew
    rw [Keyed, List.map_append]
    refine List.nodup_append.2 ⟨h, List.pairwise_singleton .., fun key hkey other hother => ?_⟩
    obtain rfl := List.mem_singleton.1 hother
    obtain ⟨a, ha, rfl⟩ := List.mem_map.1 hkey
    exact fun heq => hnew (List.any_eq_true.2 ⟨a, ha, beq_iff_eq.2 heq⟩)

theorem Keyed.foldl_addNew (h : Keyed as) : Keyed (es.foldl Shape.addNew as) := by
  induction es generalizing as with
  | nil => exact h
  | cons e es ih => exact ih (h.addNew e)

/-- Where keys differ, every entry is found by its key. -/
theorem Keyed.lookup_eq_some_iff (h : Keyed es) {key : κ} {t : Ty} :
    (es.find? (·.1 == key)).map Prod.snd = some t ↔ (key, t) ∈ es := by
  induction es with
  | nil => simp
  | cons e es ih =>
    obtain ⟨hnew, hrest⟩ := List.nodup_cons.1 h
    obtain ⟨own, u⟩ := e
    rw [List.find?_cons, List.mem_cons, ← ih hrest]
    by_cases hkey : own = key
    · subst hkey
      have hbehind : (own, t) ∉ es := fun hmem => hnew (List.mem_map.2 ⟨_, hmem, rfl⟩)
      rw [beq_self_eq_true, ih hrest]
      simp [hbehind, eq_comm]
    · have hhead : (own == key) = false := by simpa using hkey
      simp [hhead, Ne.symm hkey]

end

/-! ### Lookups -/

/-- A question to shapes that a merge answers as the first of the two does, if that has an answer. -/
structure IsLookup (f : Shape → Option Ty) : Prop where
  empty : f .empty = none
  merge : ∀ a b, f (a.merge b) = (f a).or (f b)
  akin : ∀ {a b : Shape}, a.Akin b → Option.Rel Ty.Akin (f a) (f b)

theorem isLookup_property (name : String) : IsLookup (·.property? name) where
  empty := rfl
  merge a b := by
    simp only [property?, merge, find?_foldl_addNew]
    cases a.props.find? (·.1 == name) <;> rfl
  akin h := h.property? name

theorem isLookup_signature (key : IndexKey) : IsLookup (·.signature? key) where
  empty := rfl
  merge a b := by
    simp only [signature?, merge, find?_foldl_addNew]
    cases a.index.find? (·.1 == key) <;> rfl
  akin {a b} h := by
    have hfound := find?_akin h.index key
    unfold signature?
    generalize a.index.find? (·.1 == key) = x, b.index.find? (·.1 == key) = y at hfound
    cases hfound with
    | none => exact .none
    | some hxy => exact .some hxy.2

/-- What is asked of many shapes merged behind one is answered by the first that has an answer. -/
theorem IsLookup.foldl_merge {f : Shape → Option Ty} (hf : IsLookup f) (a : Shape) (bs : List Shape) :
    f (bs.foldl Shape.merge a) = (f a).or (bs.findSome? f) := by
  induction bs generalizing a with
  | nil => simp
  | cons b bs ih =>
    rw [List.foldl_cons, ih, hf.merge, Option.or_assoc, List.findSome?_cons]
    cases f b <;> rfl

theorem keyed_foldl_merge {a : Shape} {bs : List Shape} (hprops : Keyed a.props) (hindex : Keyed a.index) :
    Keyed (bs.foldl Shape.merge a).props ∧ Keyed (bs.foldl Shape.merge a).index := by
  induction bs generalizing a with
  | nil => exact ⟨hprops, hindex⟩
  | cons b bs ih => exact ih hprops.foldl_addNew hindex.foldl_addNew

/-! ### Satisfaction -/

/-- What a shape asks for is offered by a shape that satisfies it. -/
theorem property?_of_satisfies {into : Ty → Ty → Bool} {s t : Shape} (h : s.satisfies into t = true)
    {name : String} {u : Ty} (hmem : (name, u) ∈ t.props) :
    ∃ v, s.property? name = some v ∧ into v u = true := by
  simp only [satisfies, Bool.and_eq_true, List.all_eq_true] at h
  have hoffer := h.1 (name, u) hmem
  dsimp only at hoffer
  cases hproperty : s.property? name with
  | none => simp [hproperty] at hoffer
  | some v => exact ⟨v, rfl, by simpa [hproperty] using hoffer⟩

/-- What can be looked up is all that a shape asks for: every property with a type that goes into its type,
and every index signature, where for the one for all names all properties may stand in. -/
structure Offers (property : String → Option Ty) (signature : IndexKey → Option Ty) (asked : Shape) : Prop where
  props : ∀ p ∈ asked.props, ∃ v, property p.1 = some v ∧ v.isAssignableTo p.2 = true
  index : ∀ i ∈ asked.index, (∃ v, signature i.1 = some v ∧ v.isAssignableTo i.2 = true) ∨
    (i.1 = .string ∧ ∀ name v, property name = some v → v.isAssignableTo i.2 = true)

/-- Whether a merged shape satisfies another is decided by what is looked up in it. -/
theorem satisfies_iff_offers {s t : Shape} (hprops : Keyed s.props) (hindex : Keyed s.index) :
    s.satisfies Ty.isAssignableTo t = true ↔ Offers s.property? s.signature? t := by
  constructor
  · intro h
    refine ⟨fun p hp => property?_of_satisfies h hp, fun i hi => ?_⟩
    simp only [satisfies, Bool.and_eq_true, List.all_eq_true] at h
    have hsigned := h.2 i hi
    simp only [Bool.or_eq_true, Bool.and_eq_true, List.any_eq_true, List.all_eq_true, beq_iff_eq,
      Prod.exists, Prod.forall] at hsigned
    rcases hsigned with ⟨key, v, hmem, rfl, hinto⟩ | ⟨hkey, hall⟩
    · exact .inl ⟨v, hindex.lookup_eq_some_iff.2 hmem, hinto⟩
    · exact .inr ⟨hkey, fun name v hv => hall name v (hprops.lookup_eq_some_iff.1 hv)⟩
  · intro h
    simp only [satisfies, Bool.and_eq_true, List.all_eq_true]
    refine ⟨fun p hp => ?_, fun i hi => ?_⟩
    · obtain ⟨v, hv, hinto⟩ := h.props p hp
      simpa [hv] using hinto
    · simp only [Bool.or_eq_true, Bool.and_eq_true, List.any_eq_true, List.all_eq_true, beq_iff_eq,
        Prod.exists, Prod.forall]
      rcases h.index i hi with ⟨v, hv, hinto⟩ | ⟨hkey, hall⟩
      · exact .inl ⟨i.1, v, hindex.lookup_eq_some_iff.1 hv, rfl, hinto⟩
      · exact .inr ⟨hkey, fun name v hmem => hall name v (hprops.lookup_eq_some_iff.2 hmem)⟩

/-- Types that are akin go into the same types, and so they offer the same. -/
theorem Offers.akin {property property' : String → Option Ty} {signature signature' : IndexKey → Option Ty}
    {asked : Shape} (h : Offers property signature asked)
    (hproperty : ∀ name, Option.Rel Ty.Akin (property name) (property' name))
    (hsignature : ∀ key, Option.Rel Ty.Akin (signature key) (signature' key)) :
    Offers property' signature' asked := by
  refine ⟨fun p hp => ?_, fun i hi => ?_⟩
  · obtain ⟨v, hv, hinto⟩ := h.props p hp
    obtain ⟨v', hv', hakin⟩ := Ty.exists_of_rel (hproperty p.1) hv
    exact ⟨v', hv', hakin.assignable_left hinto⟩
  · rcases h.index i hi with ⟨v, hv, hinto⟩ | ⟨hkey, hall⟩
    · obtain ⟨v', hv', hakin⟩ := Ty.exists_of_rel (hsignature i.1) hv
      exact .inl ⟨v', hv', hakin.assignable_left hinto⟩
    · refine .inr ⟨hkey, fun name v' hv' => ?_⟩
      obtain ⟨v, hv, hakin⟩ := Ty.exists_of_rel (Ty.rel_symm Ty.Akin.symm (hproperty name)) hv'
      exact hakin.symm.assignable_left (hall name v hv)

end Shape

/-! ### Intersections -/

namespace Ty

variable {t u : Ty} {ts us : List Ty} {f : Shape → Option Ty}

/-- The type of a property that a type shows. -/
def shown? (t : Ty) (name : String) : Option Ty := t.shape?.bind (·.property? name)

/-- The type that a type shows for all keys of a kind. -/
def shownSignature? (t : Ty) (key : IndexKey) : Option Ty := t.shape?.bind (·.signature? key)

/-- All of the types have a shape. -/
def Shaped (ts : List Ty) : Prop := ∀ t ∈ ts, t.shape?.isSome = true

theorem allShapes?_eq_some_iff {ss : List Shape} : allShapes? ts = some ss ↔ ts.map shape? = ss.map some := by
  induction ts generalizing ss with
  | nil => cases ss <;> simp [allShapes?]
  | cons t ts ih =>
    cases ss with
    | nil => cases hshape : t.shape? <;> cases hrest : allShapes? ts <;> simp [allShapes?, hshape, hrest]
    | cons s ss =>
      rw [List.map_cons, List.map_cons, List.cons.injEq, ← ih]
      cases hshape : t.shape? <;> cases hrest : allShapes? ts <;> simp [allShapes?, hshape, hrest]

theorem exists_allShapes? (h : Shaped ts) : ∃ ss, allShapes? ts = some ss := by
  induction ts with
  | nil => exact ⟨[], rfl⟩
  | cons t ts ih =>
    obtain ⟨ht, hts⟩ := List.forall_mem_cons.1 h
    obtain ⟨s, hs⟩ := Option.isSome_iff_exists.1 ht
    obtain ⟨ss, hss⟩ := ih hts
    exact ⟨s :: ss, by rw [allShapes?, hs, hss]⟩

/-- An intersection has a shape if all its members have one. -/
theorem isSome_shape?_intersection : (intersection ts).shape?.isSome = true ↔ Shaped ts := by
  rw [shape?, Option.isSome_map, Option.isSome_iff_exists]
  refine ⟨fun ⟨ss, hss⟩ t ht => ?_, exists_allShapes?⟩
  have hmem : t.shape? ∈ ss.map some := allShapes?_eq_some_iff.1 hss ▸ List.mem_map_of_mem ht
  obtain ⟨s, -, hs⟩ := List.mem_map.1 hmem
  rw [← hs]
  rfl

/-- What is asked of the shape of an intersection is answered by the first of its members that has an
answer. -/
theorem bind_shape?_intersection (hf : Shape.IsLookup f) (h : Shaped ts) :
    (intersection ts).shape?.bind f = ts.findSome? fun t => t.shape?.bind f := by
  obtain ⟨ss, hss⟩ := exists_allShapes? h
  have hmembers : (ts.findSome? fun t => t.shape?.bind f) = ss.findSome? f := by
    rw [← Function.comp_def (·.bind f) shape?, ← List.findSome?_map, allShapes?_eq_some_iff.1 hss,
      List.findSome?_map]
    rfl
  rw [shape?, hss, Option.map_some, Option.bind_some, hf.foldl_merge, hf.empty, Option.none_or, hmembers]

theorem shown?_intersection (h : Shaped ts) (name : String) :
    (intersection ts).shown? name = ts.findSome? (·.shown? name) :=
  bind_shape?_intersection (Shape.isLookup_property name) h

theorem shownSignature?_intersection (h : Shaped ts) (key : IndexKey) :
    (intersection ts).shownSignature? key = ts.findSome? (·.shownSignature? key) :=
  bind_shape?_intersection (Shape.isLookup_signature key) h

/-- An intersection goes by its shape into what asks for no more than it shows. -/
theorem shapesSatisfy_intersection_iff :
    shapesSatisfy isAssignableTo (intersection ts) u = true ↔ Shaped ts ∧ ∃ asked, u.shape? = some asked ∧
      Shape.Offers (intersection ts).shown? (intersection ts).shownSignature? asked := by
  by_cases hshaped : Shaped ts
  · obtain ⟨ss, hss⟩ := exists_allShapes? hshaped
    have hshape : (intersection ts).shape? = some (ss.foldl Shape.merge .empty) := by
      rw [shape?, hss, Option.map_some]
    obtain ⟨hprops, hindex⟩ : Shape.Keyed (ss.foldl Shape.merge .empty).props ∧
        Shape.Keyed (ss.foldl Shape.merge .empty).index := Shape.keyed_foldl_merge .nil .nil
    unfold shapesSatisfy shown? shownSignature?
    rw [hshape]
    cases u.shape? with
    | none => simp
    | some asked => simp [Shape.satisfies_iff_offers hprops hindex, hshaped]
  · have hnone : (intersection ts).shape? = none := by
      simpa using mt isSome_shape?_intersection.1 hshaped
    simp [shapesSatisfy, hnone, hshaped]

/-! ### Opened members -/

theorem Akin.isSome_shape? (h : t.Akin u) : t.shape?.isSome = u.shape?.isSome := by
  have hshape := shape?_akin t h
  generalize t.shape? = x, u.shape? = y at hshape
  cases hshape <;> rfl

theorem Akin.bind_shape? (hf : Shape.IsLookup f) (h : t.Akin u) :
    Option.Rel Akin (t.shape?.bind f) (u.shape?.bind f) := by
  have hshape := shape?_akin t h
  generalize t.shape? = x, u.shape? = y at hshape
  cases hshape with
  | some hs => exact hf.akin hs
  | none => exact .none

theorem shaped_intersectionMembers : Shaped t.intersectionMembers ↔ t.shape?.isSome = true := by
  cases t with
  | intersection ms => exact isSome_shape?_intersection.symm
  | _ => exact List.forall_mem_singleton

theorem findSome?_intersectionMembers (hf : Shape.IsLookup f) (h : t.shape?.isSome = true) :
    (t.intersectionMembers.findSome? fun u => u.shape?.bind f) = t.shape?.bind f := by
  cases t with
  | intersection ms => exact (bind_shape?_intersection hf (isSome_shape?_intersection.1 h)).symm
  | _ => exact List.findSome?_singleton

theorem findSome?_flatMap_intersectionMembers (hf : Shape.IsLookup f) (h : Shaped ts) :
    ((ts.flatMap intersectionMembers).findSome? fun t => t.shape?.bind f) =
      ts.findSome? fun t => t.shape?.bind f := by
  induction ts with
  | nil => rfl
  | cons t ts ih =>
    obtain ⟨ht, hts⟩ := List.forall_mem_cons.1 h
    rw [List.flatMap_cons, List.findSome?_append, findSome?_intersectionMembers hf ht, ih hts,
      List.findSome?_cons]
    cases t.shape?.bind f <;> rfl

/-- What is repeated has the same answer as before. -/
theorem findSome?_distinct (hf : Shape.IsLookup f) :
    Option.Rel Akin ((distinct ts).findSome? fun t => t.shape?.bind f)
      (ts.findSome? fun t => t.shape?.bind f) := by
  induction ts using List.reverseRecOn with
  | nil => exact .none
  | append_singleton ts t ih =>
    rw [distinct_append_singleton, List.findSome?_append, List.findSome?_singleton, addDistinct]
    cases hbefore : ts.findSome? fun t => t.shape?.bind f with
    | some v =>
      rw [hbefore] at ih
      obtain ⟨w, hw, hakin⟩ := exists_of_rel (rel_symm Akin.symm ih) rfl
      split
      · rw [hw]
        exact .some hakin.symm
      · rw [List.findSome?_append, hw]
        exact .some hakin.symm
    | none =>
      -- nothing has an answer before the last one, and so it is not repeated if it has one
      rw [hbefore] at ih
      have hnone : (distinct ts).findSome? (fun t => t.shape?.bind f) = none := by
        cases hfound : (distinct ts).findSome? fun t => t.shape?.bind f with
        | none => rfl
        | some w =>
          rw [hfound] at ih
          cases ih
      rw [Option.none_or]
      split
      · rename_i hany
        obtain ⟨u, hu, hut⟩ := List.any_eq_true.1 hany
        rw [hnone, ← List.findSome?_eq_none_iff.1 hnone u hu]
        exact Akin.bind_shape? hf (.inr hut)
      · rw [List.findSome?_append, hnone, List.findSome?_singleton, Option.none_or]
        exact rel_refl Akin.refl _

theorem shaped_opened : Shaped (distinct (ts.flatMap intersectionMembers)) ↔ Shaped ts := by
  unfold Shaped
  rw [forall_mem_distinct fun a b hab ha => hab.isSome_shape? ▸ ha, List.forall_mem_flatMap]
  exact forall₂_congr fun t _ => shaped_intersectionMembers

/-- Opening the intersections among types and dropping repetitions leaves what they show together. -/
theorem shapesSatisfy_opened (ts : List Ty) (u : Ty) :
    shapesSatisfy isAssignableTo (intersection (distinct (ts.flatMap intersectionMembers))) u =
      shapesSatisfy isAssignableTo (intersection ts) u := by
  rw [Bool.eq_iff_iff, shapesSatisfy_intersection_iff, shapesSatisfy_intersection_iff, shaped_opened]
  refine and_congr_right fun h => exists_congr fun asked => and_congr_right fun _ => ?_
  have hlookup : ∀ {f : Shape → Option Ty}, Shape.IsLookup f →
      Option.Rel Akin ((intersection (distinct (ts.flatMap intersectionMembers))).shape?.bind f)
        ((intersection ts).shape?.bind f) := by
    intro f hf
    rw [bind_shape?_intersection hf (shaped_opened.2 h), bind_shape?_intersection hf h,
      ← findSome?_flatMap_intersectionMembers hf h]
    exact findSome?_distinct hf
  have hproperty := fun name => hlookup (Shape.isLookup_property name)
  have hsignature := fun key => hlookup (Shape.isLookup_signature key)
  constructor
  · intro ho
    exact ho.akin hproperty hsignature
  · intro ho
    exact ho.akin (fun name => rel_symm Akin.symm (hproperty name))
      fun key => rel_symm Akin.symm (hsignature key)

end Ty

end ScriptCheck
