import ScriptCheck.Proofs.Ty.Equality
import ScriptCheck.Ty.Assignable.Recursion

/-!
The rules of assignability, each as a step into it or out of it. Equal types come first, then unions of
the source, then unions of the target; what is left is decided by the kinds of the two types.
-/

namespace ScriptCheck

namespace Ty

variable {s t : Ty} {ms : List Ty}

/-! ### Into assignability -/

theorem assignable_of_same (h : s.same t = true) : s.isAssignableTo t = true := by
  rw [isAssignableTo_eq_intoStep]
  unfold intoStep
  rw [h]
  rfl

/-- A union goes where all its members go. -/
theorem union_assignable (h : ∀ m ∈ ms, m.isAssignableTo t = true) :
    (union ms).isAssignableTo t = true := by
  rw [isAssignableTo_eq_intoStep]
  unfold intoStep
  split
  · rfl
  · exact List.all_eq_true.2 h

/-- What goes into a member of a union goes into the union. -/
theorem assignable_union {m : Ty} (hs : s.isUnion = false) (hm : m ∈ ms)
    (h : s.isAssignableTo m = true) : s.isAssignableTo (union ms) = true := by
  rw [isAssignableTo_eq_intoStep]
  unfold intoStep
  split
  · rfl
  · cases s with
    | union => cases hs
    | _ => exact List.any_eq_true.2 ⟨m, hm, h⟩

/-- What goes into all members of an intersection goes into the intersection. -/
theorem assignable_intersection (hs : s.isUnion = false) (h : ∀ m ∈ ms, s.isAssignableTo m = true) :
    s.isAssignableTo (intersection ms) = true := by
  rw [isAssignableTo_eq_intoStep]
  unfold intoStep
  split
  · rfl
  · cases s with
    | union => cases hs
    | _ => exact List.all_eq_true.2 h

/-- Where no union and no equality decides, the kinds of the two types do. -/
theorem assignable_of_element (hs : s.isUnion = false) (ht : t.isUnion = false)
    (hi : t.isIntersection = false) (h : elementInto isAssignableTo s t = true) :
    s.isAssignableTo t = true := by
  rw [isAssignableTo_eq_intoStep]
  unfold intoStep
  split
  · rfl
  · cases t with
    | union => cases ht
    | intersection => cases hi
    | _ =>
      cases s with
      | union => cases hs
      | _ => exact h

/-! ### Out of assignability -/

/-- The members of a union go where it goes, unless it is equal to that. -/
theorem same_or_of_union_assignable (ht : t.isAny = false)
    (h : (union ms).isAssignableTo t = true) :
    (union ms).same t = true ∨ ∀ m ∈ ms, m.isAssignableTo t = true := by
  have hsource : (union ms).isAny = false := rfl
  rw [isAssignableTo_eq_intoStep] at h
  unfold intoStep at h
  by_cases hsame : (union ms).same t = true
  · exact .inl hsame
  · rw [if_neg (by simpa [hsource, ht] using hsame)] at h
    exact .inr (List.all_eq_true.1 h)

/-- What goes into a union and is none goes into one of its members. -/
theorem exists_of_assignable_union (hs : s.isUnion = false) (hany : s.isAny = false)
    (h : s.isAssignableTo (union ms) = true) : ∃ m ∈ ms, s.isAssignableTo m = true := by
  have hsame : s.same (union ms) = false := by
    cases s with
    | union => cases hs
    | _ => simp only [same]
  have htarget : (union ms).isAny = false := rfl
  rw [isAssignableTo_eq_intoStep] at h
  unfold intoStep at h
  rw [hsame, hany, htarget] at h
  cases s with
  | union => cases hs
  | _ => exact List.any_eq_true.1 h

/-- Types that are neither unions nor `any` are equal, or their kinds decide. -/
theorem same_or_element_of_assignable (hs : s.isUnion = false) (ht : t.isUnion = false)
    (hi : t.isIntersection = false) (hsany : s.isAny = false) (htany : t.isAny = false)
    (h : s.isAssignableTo t = true) :
    s.same t = true ∨ elementInto isAssignableTo s t = true := by
  rw [isAssignableTo_eq_intoStep] at h
  unfold intoStep at h
  by_cases hsame : s.same t = true
  · exact .inl hsame
  · rw [if_neg (by simpa [hsany, htany] using hsame)] at h
    refine .inr ?_
    cases t with
    | union => cases ht
    | intersection => cases hi
    | _ =>
      cases s with
      | union => cases hs
      | _ => exact h

end Ty

/-! ### Properties -/

/-- The shape of an interface has the type of its first property of a name. -/
theorem Shape.property?_of_props (props : List (Property Ty)) (index : List (IndexKey × Ty))
    (name : String) :
    (⟨props.map fun p => (p.name, p.type), index⟩ : Shape).property? name =
      (props.find? (·.name == name)).map (·.type) := by
  simp only [property?, List.find?_map, Function.comp_def, Option.map_map]

end ScriptCheck
