import ScriptCheck.Proofs.Ty.Covering

/-!
Unions made step by step. What is dropped early as a repetition would be dropped later, so that types may be
joined in groups and the groups joined again: the union is the one of all types at once, with its members in
the order of their first appearance.
-/

namespace ScriptCheck

namespace Ty

variable {t u : Ty} {ts us seen : List Ty}

/-! ### Repetitions -/

/-- What is there already is not added. -/
theorem addDistinct_eq_self (hu : u ∈ seen) (hut : u.same t = true) : addDistinct seen t = seen :=
  if_pos (List.any_eq_true.2 ⟨u, hu, hut⟩)

/-- Dropping repetitions early changes nothing. -/
theorem distinct_append_distinct (before ts : List Ty) :
    distinct (before ++ distinct ts) = distinct (before ++ ts) := by
  induction ts using List.reverseRecOn with
  | nil => rfl
  | append_singleton ts t ih =>
    rw [distinct_append_singleton, ← List.append_assoc, distinct_append_singleton, ← ih]
    cases hany : (distinct ts).any (·.same t) with
    | true =>
      obtain ⟨u, hu, hut⟩ := List.any_eq_true.1 hany
      obtain ⟨v, hv, hvu⟩ := exists_mem_distinct (List.mem_append_right before hu)
      have hvt : v.same t = true := hvu.elim (fun heq => heq ▸ hut) fun hsame => same_trans hsame hut
      rw [addDistinct_eq_self hu hut, addDistinct_eq_self hv hvt]
    | false =>
      have hadd : addDistinct (distinct ts) t = distinct ts ++ [t] := if_neg (by simp [hany])
      rw [hadd, ← List.append_assoc, distinct_append_singleton]

theorem distinct_flatMap_distinct {α : Type} (f : α → List Ty) (as : List α) :
    distinct (as.flatMap fun a => distinct (f a)) = distinct (as.flatMap f) := by
  suffices h : ∀ before : List Ty,
      distinct (before ++ as.flatMap fun a => distinct (f a)) = distinct (before ++ as.flatMap f) from h []
  induction as with
  | nil => exact fun _ => rfl
  | cons a as ih =>
    intro before
    rw [List.flatMap_cons, List.flatMap_cons, ← List.append_assoc, ih, ← List.append_assoc, distinct_append,
      distinct_append_distinct, ← distinct_append]

/-! ### Unions of unions -/

/-- Unions are determined by their distinct members. -/
theorem unionOf_congr (h : distinct (ts.flatMap unionMembers) = distinct (us.flatMap unionMembers)) :
    unionOf ts = unionOf us := by
  unfold unionOf gather
  rw [h]

/-- A normal type is the union of itself. -/
theorem unionOf_singleton (h : t.IsNormal) : unionOf [t] = t := by
  have hmembers : distinct ([t].flatMap unionMembers) = t.unionMembers := by
    rw [List.flatMap_singleton]
    refine distinct_of_pairwise ?_
    cases t with
    | union ms => exact h.distinct
    | _ => exact List.pairwise_singleton ..
  unfold unionOf gather
  rw [hmembers]
  cases t with
  | union ms =>
    rcases ms with _ | ⟨x, _ | ⟨y, ms⟩⟩
    · exact absurd h.two (by decide)
    · exact absurd h.two (by simp)
    · rfl
  | _ => rfl

/-- The union of types, if there are any. -/
def unionOf? : List Ty → Option Ty
  | [] => none
  | t :: ts => some (unionOf (t :: ts))

theorem unionOf?_eq_none : unionOf? ts = none ↔ ts = [] := by
  cases ts <;> simp [unionOf?]

theorem unionOf?_of_ne_nil (h : ts ≠ []) : unionOf? ts = some (unionOf ts) := by
  cases ts with
  | nil => exact absurd rfl h
  | cons => rfl

theorem flatMap_unionMembers_filterMap {tss : List (List Ty)} (h : ∀ ts ∈ tss, ∀ t ∈ ts, t.IsNormal) :
    (tss.filterMap unionOf?).flatMap unionMembers =
      tss.flatMap fun ts => distinct (ts.flatMap unionMembers) := by
  induction tss with
  | nil => rfl
  | cons ts tss ih =>
    rw [List.forall_mem_cons] at h
    rw [List.flatMap_cons, ← ih h.2]
    cases ts with
    | nil => rfl
    | cons t ts => rw [List.filterMap_cons, unionOf?, List.flatMap_cons, unionMembers_unionOf h.1]

/-- The union of unions of normal types is the union of all of them at once. -/
theorem unionOf?_flatten {tss : List (List Ty)} (h : ∀ ts ∈ tss, ∀ t ∈ ts, t.IsNormal) :
    unionOf? (tss.filterMap unionOf?) = unionOf? tss.flatten := by
  have hnil : tss.filterMap unionOf? = [] ↔ tss.flatten = [] := by
    simp only [List.filterMap_eq_nil_iff, unionOf?_eq_none, List.flatten_eq_nil_iff]
  by_cases hflat : tss.flatten = []
  · rw [hflat, hnil.2 hflat]
  · have hgroups : tss.flatten.flatMap unionMembers = tss.flatMap (·.flatMap unionMembers) := by
      rw [← List.flatMap_id, List.flatMap_assoc]
      rfl
    rw [unionOf?_of_ne_nil hflat, unionOf?_of_ne_nil (mt hnil.1 hflat)]
    refine congrArg some (unionOf_congr ?_)
    rw [flatMap_unionMembers_filterMap h, distinct_flatMap_distinct, hgroups]

end Ty

end ScriptCheck
