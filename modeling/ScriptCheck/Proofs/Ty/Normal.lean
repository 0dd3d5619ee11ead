import ScriptCheck.Proofs.Ty.Equality
import ScriptCheck.Proofs.Ty.Every

/-!
Types in normal form. A union has at least two members, none of which is a union and no two of which are
equal, and so has an intersection; no literal is NaN, so that every type is equal to itself. The union and
the intersection of normal types are normal, if they are of anything at all, and so is whatever the
operations on types make of normal types.
-/

namespace ScriptCheck

theorem Literal.same_self {v : Literal} (h : v ≠ .float .nan) : v.same v = true := by
  cases v with
  | float x =>
    cases x with
    | nan => exact absurd rfl h
    | _ => simp [Literal.same, Binary64.same]
  | _ => simp [Literal.same]

namespace Ty

/-- The members of a union or an intersection: at least two, none of them of the same kind, and no two of
them equal. -/
structure Flat (nested : Ty → Bool) (ms : List Ty) : Prop where
  two : 2 ≤ ms.length
  flat : ∀ m ∈ ms, nested m = false
  distinct : ms.Pairwise fun a b => a.same b = false

/-- The form of a type on its outside. -/
def IsNormal : Ty → Prop
  | .union ms => Flat isUnion ms
  | .intersection ms => Flat isIntersection ms
  | .literal value => value ≠ .float .nan
  | _ => True

variable {t u : Ty} {ts seen : List Ty}

/-! ### Distinct types -/

theorem pairwise_addDistinct (h : seen.Pairwise fun a b => a.same b = false) (t : Ty) :
    (addDistinct seen t).Pairwise fun a b => a.same b = false := by
  unfold addDistinct
  split
  · exact h
  · rename_i hnone
    refine List.pairwise_append.2 ⟨h, List.pairwise_singleton .., fun a ha b hb => ?_⟩
    obtain rfl := List.mem_singleton.1 hb
    simp only [List.any_eq_true, not_exists, not_and, Bool.not_eq_true] at hnone
    exact hnone a ha

/-- The distinct types of a list are distinct. -/
theorem pairwise_distinct (ts : List Ty) : (distinct ts).Pairwise fun a b => a.same b = false := by
  unfold distinct
  suffices hfold : ∀ seen : List Ty, (seen.Pairwise fun a b => a.same b = false) →
      (ts.foldl addDistinct seen).Pairwise fun a b => a.same b = false from hfold [] .nil
  induction ts with
  | nil => exact fun _ h => h
  | cons t ts ih => exact fun seen h => ih _ (pairwise_addDistinct h t)

/-- Every type of a list is equal to one of its distinct types, or one of them itself. -/
theorem exists_mem_distinct (h : t ∈ ts) : ∃ u ∈ distinct ts, u = t ∨ u.same t = true := by
  unfold distinct
  suffices hfold : ∀ seen : List Ty, (∃ u ∈ seen, u = t ∨ u.same t = true) ∨ t ∈ ts →
      ∃ u ∈ ts.foldl addDistinct seen, u = t ∨ u.same t = true from hfold [] (.inr h)
  clear h
  induction ts with
  | nil =>
    rintro seen (hseen | h)
    · exact hseen
    · cases h
  | cons x ts ih =>
    intro seen h
    refine ih _ ?_
    rw [addDistinct]
    rcases h with ⟨u, hu, heq⟩ | h
    · refine .inl ⟨u, ?_, heq⟩
      split
      · exact hu
      · exact List.mem_append_left _ hu
    · rcases List.mem_cons.1 h with rfl | h
      · refine .inl ?_
        split
        · rename_i hany
          obtain ⟨u, hu, hsame⟩ := List.any_eq_true.1 hany
          exact ⟨u, hu, .inr hsame⟩
        · exact ⟨t, List.mem_append_right _ List.mem_cons_self, .inl rfl⟩
      · exact .inr h

/-! ### Unions and intersections -/

theorem Flat.ne_nil {nested : Ty → Bool} {ms : List Ty} (h : Flat nested ms) : ms ≠ [] := by
  rintro rfl
  exact absurd h.two (by decide)

theorem IsNormal.unionMembers (h : t.IsNormal) :
    t.unionMembers ≠ [] ∧ ∀ u ∈ t.unionMembers, u.isUnion = false := by
  cases t with
  | union ms => exact ⟨Flat.ne_nil h, h.flat⟩
  | _ => exact ⟨List.cons_ne_nil _ _, List.forall_mem_singleton.2 rfl⟩

theorem IsNormal.intersectionMembers (h : t.IsNormal) :
    t.intersectionMembers ≠ [] ∧ ∀ u ∈ t.intersectionMembers, u.isIntersection = false := by
  cases t with
  | intersection ms => exact ⟨Flat.ne_nil h, h.flat⟩
  | _ => exact ⟨List.cons_ne_nil _ _, List.forall_mem_singleton.2 rfl⟩

/-- Opened members that are distinct are one or flat. -/
theorem flat_distinct {members : Ty → List Ty} {nested : Ty → Bool} (hts : ts ≠ [])
    (h : ∀ t ∈ ts, members t ≠ [] ∧ ∀ u ∈ members t, nested u = false)
    (hone : ∀ t, distinct (ts.flatMap members) ≠ [t]) : Flat nested (distinct (ts.flatMap members)) := by
  refine ⟨?_, fun m hm => ?_, pairwise_distinct _⟩
  · obtain ⟨t, ht⟩ := List.exists_mem_of_ne_nil ts hts
    obtain ⟨u, hu⟩ := List.exists_mem_of_ne_nil _ (h t ht).1
    obtain ⟨v, hv, -⟩ := exists_mem_distinct (List.mem_flatMap.2 ⟨t, ht, hu⟩)
    rcases hms : distinct (ts.flatMap members) with _ | ⟨x, _ | ⟨y, ms⟩⟩
    · rw [hms] at hv
      cases hv
    · exact absurd hms (hone x)
    · simp
  · obtain ⟨t, ht, hu⟩ := List.mem_flatMap.1 (mem_of_mem_distinct hm)
    exact (h t ht).2 m hu

/-- Being normal is kept by the operations on types. -/
theorem closed_isNormal : Closed IsNormal where
  named _ _ := trivial
  array _ := trivial
  interface _ := trivial
  function _ := trivial
  literal _ hvalue := hvalue
  unionOf _ hts h :=
    every_unionOf h (flat_distinct hts fun t ht => (h t ht).here.unionMembers)
  intersectionOf _ hts h :=
    every_intersectionOf h (flat_distinct hts fun t ht => (h t ht).here.intersectionMembers)

/-! ### Every normal type is equal to itself -/

theorem sameAll_self (h : ∀ t ∈ ts, t.same t = true) : sameAll ts ts = true := by
  induction ts with
  | nil => rfl
  | cons t ts ih =>
    rw [List.forall_mem_cons] at h
    rw [sameAll, h.1, ih h.2]
    rfl

theorem sameOption_self {t : Option Ty} (h : ∀ u ∈ t, u.same u = true) : sameOption t t = true := by
  cases t with
  | none => rfl
  | some t => exact h t rfl

theorem sameProps_self {ps : List (Property Ty)} (h : ∀ p ∈ ps, p.type.same p.type = true) :
    sameProps ps ps = true := by
  induction ps with
  | nil => rfl
  | cons p ps ih =>
    obtain ⟨name, type, writable⟩ := p
    rw [List.forall_mem_cons] at h
    simp [sameProps, h.1, ih h.2]

theorem sameIndex_self {is : List (IndexKey × Ty)} (h : ∀ i ∈ is, i.2.same i.2 = true) :
    sameIndex is is = true := by
  induction is with
  | nil => rfl
  | cons i is ih =>
    obtain ⟨key, type⟩ := i
    rw [List.forall_mem_cons] at h
    simp [sameIndex, h.1, ih h.2]

theorem sameParams_self {ps : List (String × Ty)} (h : ∀ p ∈ ps, p.2.same p.2 = true) :
    sameParams ps ps = true := by
  induction ps with
  | nil => rfl
  | cons p ps ih =>
    obtain ⟨name, type⟩ := p
    rw [List.forall_mem_cons] at h
    simp [sameParams, h.1, ih h.2]

theorem sameMembers_self {ms : List (Member Ty)} (h : ∀ m ∈ ms, m.type.same m.type = true) :
    sameMembers ms ms = true := by
  induction ms with
  | nil => rfl
  | cons m ms ih =>
    obtain ⟨name, type, modifiers, writable⟩ := m
    rw [List.forall_mem_cons] at h
    simp [sameMembers, h.1, ih h.2]

/-- A type without NaN is equal to itself. -/
theorem same_self_of_every {P : Ty → Prop} (hP : ∀ value, P (.literal value) → value ≠ .float .nan)
    (h : t.Every P) : t.same t = true := by
  induction h with
  | named _ _ ih => simp [same, sameAll_self ih]
  | union _ _ ih => exact sameAll_self ih
  | array _ _ ih => exact sameOption_self ih
  | @interface i _ _ _ ihprops ihindex =>
    obtain ⟨name, props, index⟩ := i
    simp [same, sameProps_self ihprops, sameIndex_self ihindex]
  | @function f _ _ _ ihparams ihresult =>
    obtain ⟨params, result⟩ := f
    simp [same, sameParams_self ihparams, show result.same result = true from ihresult]
  | @classType c _ _ _ _ ihmembers ihmixins ihsuper =>
    obtain ⟨name, members, mixins, superclass⟩ := c
    simp [same, sameMembers_self ihmembers, sameAll_self ihmixins, sameOption_self ihsuper]
  | literal here => exact Literal.same_self (hP _ here)
  | intersection _ _ ih => exact sameAll_self ih

theorem same_self (h : t.Every IsNormal) : t.same t = true := same_self_of_every (fun _ => id) h

end Ty

end ScriptCheck
