import ScriptCheck.Proofs.Ty.Normal
import ScriptCheck.Proofs.Ty.Rules

/-!
Types that are found by inference. A union covers what it is made of, member by member, and what is covered
once its literals are replaced goes into what covers it. A type takes anything if it is `any`, or a union
with such a member, or an intersection of such members.
-/

namespace ScriptCheck

namespace Ty

variable {s t u : Ty} {ts : List Ty}

/-! ### Covering -/

/-- Every member of the second type is equal to a member of the first. -/
def Covers (t s : Ty) : Prop := ∀ m ∈ s.unionMembers, ∃ n ∈ t.unionMembers, m.same n = true

theorem Covers.refl (h : t.Every IsNormal) : t.Covers t :=
  fun m hm => ⟨m, hm, same_self (h.unionMembers m hm)⟩

theorem Covers.trans (htu : u.Covers t) (hst : t.Covers s) : u.Covers s := by
  intro m hm
  obtain ⟨n, hn, hmn⟩ := hst m hm
  obtain ⟨o, ho, hno⟩ := htu n hn
  exact ⟨o, ho, same_trans hmn hno⟩

/-- The members of a union of normal types are the distinct members of these. -/
theorem unionMembers_unionOf (h : ∀ t ∈ ts, t.IsNormal) :
    (unionOf ts).unionMembers = distinct (ts.flatMap unionMembers) := by
  rcases gather_cases unionMembers .union ts with ⟨m, hone, heq⟩ | ⟨-, heq⟩
  · obtain ⟨t, ht, hm⟩ := List.mem_flatMap.1 (mem_of_mem_distinct (hone ▸ List.mem_cons_self))
    have hplain : m.isUnion = false := (h t ht).unionMembers.2 m hm
    rw [unionOf, heq, hone]
    cases m with
    | union _ => cases hplain
    | _ => rfl
  · rw [unionOf, heq]
    rfl

/-- A union covers the types that it is of. -/
theorem covers_unionOf (h : ∀ t ∈ ts, t.Every IsNormal) (ht : t ∈ ts) : (unionOf ts).Covers t := by
  intro m hm
  rw [unionMembers_unionOf fun t ht => (h t ht).here]
  obtain ⟨n, hn, heq⟩ := exists_mem_distinct (List.mem_flatMap.2 ⟨t, ht, hm⟩)
  rcases heq with rfl | hsame
  · exact ⟨n, hn, same_self ((h t ht).unionMembers n hm)⟩
  · exact ⟨n, hn, same_symm hsame⟩

theorem mem_widenedAll_of_mem (h : t ∈ ts) : t.widened ∈ widenedAll ts := by
  induction ts with
  | nil => cases h
  | cons u us ih =>
    rcases List.mem_cons.1 h with rfl | h
    · exact List.mem_cons_self
    · exact List.mem_cons_of_mem _ (ih h)

theorem unionMembers_widened (h : s.isUnion = false) : s.widened.unionMembers = [s.widened] := by
  cases s with
  | union _ => cases h
  | _ => rfl

/-- What goes into a member of a type goes into the type. -/
theorem assignable_of_member (hs : s.isUnion = false) (hu : u ∈ t.unionMembers)
    (h : s.isAssignableTo u = true) : s.isAssignableTo t = true := by
  cases t with
  | union ms => exact assignable_union hs hu h
  | _ => exact List.mem_singleton.1 hu ▸ h

/-- A type goes into what it is when its literals are replaced. -/
theorem assignable_of_widened_same (hs : s.isUnion = false) (h : s.widened.same t = true) :
    s.isAssignableTo t = true := by
  cases s with
  | union _ => cases hs
  | literal v =>
    cases t with
    | named name args =>
      simp only [widened, singular, same, Bool.and_eq_true, beq_iff_eq] at h
      refine assignable_of_element rfl rfl rfl ?_
      rw [elementInto, isNamed, h.1, beq_self_eq_true]
    | _ => cases h
  | _ => exact assignable_of_same h

/-- A normal type goes into what covers it without its literals. -/
theorem assignable_of_covers (hs : s.Every IsNormal) (h : t.Covers s.widened) :
    s.isAssignableTo t = true := by
  have hplain : ∀ m : Ty, m.isUnion = false → t.Covers m.widened → m.isAssignableTo t = true := by
    intro m hm hcovers
    obtain ⟨u, hu, hsame⟩ := hcovers m.widened (unionMembers_widened hm ▸ List.mem_cons_self)
    exact assignable_of_member hm hu (assignable_of_widened_same hm hsame)
  cases s with
  | union ms =>
    have hmembers : ∀ m ∈ ms, m.Every IsNormal := hs.unionMembers
    refine union_assignable fun m hm => hplain m (hs.here.flat m hm) (h.trans ?_)
    refine covers_unionOf (fun u hu => ?_) (mem_widenedAll_of_mem hm)
    obtain ⟨v, hv, rfl⟩ := mem_widenedAll hu
    exact closed_isNormal.widened (hmembers v hv)
  | _ => exact hplain _ rfl h

/-! ### Types that take anything -/

/-- A type that takes anything. -/
inductive TakesAny : Ty → Prop
  | any {t : Ty} (h : t.isAny = true) : TakesAny t
  | union {ms : List Ty} {m : Ty} (hm : m ∈ ms) (h : TakesAny m) : TakesAny (.union ms)
  | intersection {ms : List Ty} (h : ∀ m ∈ ms, TakesAny m) : TakesAny (.intersection ms)

theorem takesAny_iff_unionMembers : t.TakesAny ↔ ∃ m ∈ t.unionMembers, m.TakesAny := by
  cases t with
  | union ms =>
    constructor
    · rintro (h | ⟨hm, h⟩)
      · cases h
      · exact ⟨_, hm, h⟩
    · rintro ⟨m, hm, h⟩
      exact .union hm h
  | _ => simp [unionMembers]

theorem takesAny_iff_intersectionMembers :
    t.TakesAny ↔ ∀ m ∈ t.intersectionMembers, m.TakesAny := by
  cases t with
  | intersection ms =>
    constructor
    · rintro (h | _ | h)
      · cases h
      · exact h
    · exact .intersection
  | _ => simp [intersectionMembers]

/-- Types that are equal take the same. -/
theorem TakesAny.same (h : t.TakesAny) : ∀ {u : Ty}, t.same u = true → u.TakesAny := by
  induction h with
  | @any t h =>
    intro u hsame
    cases t with
    | named name args =>
      cases u with
      | named name' args' =>
        simp only [Ty.same, Bool.and_eq_true, beq_iff_eq] at hsame
        obtain ⟨rfl, -⟩ := hsame
        exact .any h
      | _ => cases hsame
    | _ => cases h
  | @union ms m hm _ ih =>
    intro u hsame
    cases u with
    | union ns =>
      have hback : sameAll ns ms = true := same_symm hsame
      obtain ⟨n, hn, hnm⟩ := exists_same_of_mem hback hm
      exact .union hn (ih (same_symm hnm))
    | _ => cases hsame
  | @intersection ms _ ih =>
    intro u hsame
    cases u with
    | intersection ns =>
      refine .intersection fun n hn => ?_
      obtain ⟨m, hm, hmn⟩ := exists_same_of_mem hsame hn
      exact ih m hm hmn
    | _ => cases hsame

theorem TakesAny.of_distinct (h : t ∈ ts) (ht : t.TakesAny) : ∃ u ∈ distinct ts, u.TakesAny := by
  obtain ⟨u, hu, rfl | hsame⟩ := exists_mem_distinct h
  · exact ⟨u, hu, ht⟩
  · exact ⟨u, hu, ht.same (same_symm hsame)⟩

/-- A union takes anything if and only if one of its types does. -/
theorem takesAny_unionOf : (unionOf ts).TakesAny ↔ ∃ t ∈ ts, t.TakesAny := by
  have hmembers : (unionOf ts).TakesAny ↔ ∃ m ∈ distinct (ts.flatMap unionMembers), m.TakesAny :=
    gather_iff (P := TakesAny) (Q := fun ms => ∃ m ∈ ms, m.TakesAny) (by simp) fun _ =>
      takesAny_iff_unionMembers
  rw [hmembers]
  constructor
  · rintro ⟨m, hm, h⟩
    obtain ⟨t, ht, hm⟩ := List.mem_flatMap.1 (mem_of_mem_distinct hm)
    exact ⟨t, ht, takesAny_iff_unionMembers.2 ⟨m, hm, h⟩⟩
  · rintro ⟨t, ht, h⟩
    obtain ⟨m, hm, h⟩ := takesAny_iff_unionMembers.1 h
    exact h.of_distinct (List.mem_flatMap.2 ⟨t, ht, hm⟩)

/-- An intersection takes anything if and only if all its types do. -/
theorem takesAny_intersectionOf : (intersectionOf ts).TakesAny ↔ ∀ t ∈ ts, t.TakesAny := by
  have hmembers : (intersectionOf ts).TakesAny ↔
      ∀ m ∈ distinct (ts.flatMap intersectionMembers), m.TakesAny :=
    gather_iff (P := TakesAny) (Q := fun ms => ∀ m ∈ ms, m.TakesAny) (by simp) fun _ =>
      takesAny_iff_intersectionMembers
  rw [hmembers]
  constructor
  · intro h t ht
    refine takesAny_iff_intersectionMembers.2 fun m hm => ?_
    obtain ⟨n, hn, rfl | hsame⟩ := exists_mem_distinct (List.mem_flatMap.2 ⟨t, ht, hm⟩)
    · exact h n hn
    · exact (h n hn).same hsame
  · intro h m hm
    obtain ⟨t, ht, hm⟩ := List.mem_flatMap.1 (mem_of_mem_distinct hm)
    exact takesAny_iff_intersectionMembers.1 (h t ht) m hm

theorem TakesAny.assignable_plain (h : t.TakesAny) (hs : s.isUnion = false) :
    s.isAssignableTo t = true := by
  induction h with
  | any h =>
    rw [isAssignableTo_eq_intoStep]
    unfold intoStep
    simp [h]
  | union hm _ ih => exact assignable_union hs hm ih
  | intersection _ ih => exact assignable_intersection hs ih

theorem TakesAny.assignable (h : t.TakesAny) (hs : s.IsNormal) : s.isAssignableTo t = true := by
  cases s with
  | union ms => exact union_assignable fun m hm => h.assignable_plain (hs.flat m hm)
  | _ => exact h.assignable_plain rfl

end Ty

end ScriptCheck
