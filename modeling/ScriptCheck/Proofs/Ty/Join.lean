import ScriptCheck.Proofs.Ty.Invariance
import ScriptCheck.Proofs.Ty.Normal

/-!
Unions are joins. A union goes where all its members go, and what is no union itself goes into a union if
it goes into one of its members, whether members are unions again, or equal to others, or differ from
themselves. So it does not matter in which order, how often and in which groups types are joined.
-/

namespace ScriptCheck

namespace Ty

/-- Induction on the members of unions and intersections. -/
@[elab_as_elim]
theorem induction_on_members {motive : Ty → Prop} (t : Ty)
    (plain : ∀ t : Ty, t.isUnion = false → t.isIntersection = false → motive t)
    (union : ∀ ms : List Ty, (∀ m ∈ ms, motive m) → motive (.union ms))
    (intersection : ∀ ms : List Ty, (∀ m ∈ ms, motive m) → motive (.intersection ms)) : motive t := by
  induction hn : t.size using Nat.strongRecOn generalizing t with
  | ind n ih =>
    subst hn
    cases t with
    | union ms =>
      refine union ms fun m hm => ih m.size ?_ m rfl
      have := size_le_sizeAll hm
      simp only [size]
      omega
    | intersection ms =>
      refine intersection ms fun m hm => ih m.size ?_ m rfl
      have := size_le_sizeAll hm
      simp only [size]
      omega
    | _ => exact plain _ rfl rfl

variable {s t u : Ty} {ts us ms : List Ty}

/-! ### Members of unions -/

/-- A type stands in another if that is the type itself, or a union with a member in which it stands. -/
inductive Within (u : Ty) : Ty → Prop
  | self : Within u u
  | member {ms : List Ty} {m : Ty} (hm : m ∈ ms) (h : Within u m) : Within u (.union ms)

theorem Within.of_union (h : (union ms).Within t) {m : Ty} (hm : m ∈ ms) : m.Within t := by
  induction h with
  | self => exact .member hm .self
  | member hmem _ ih => exact .member hmem ih

theorem Within.assignable (h : u.Within t) (hs : s.isUnion = false) (hsu : s.isAssignableTo u = true) :
    s.isAssignableTo t = true := by
  induction h with
  | self => exact hsu
  | member hm _ ih => exact assignable_union hs hm ih

/-- What is equal to itself goes into a type in which it stands, also if it is a union again. -/
theorem assignable_of_within (hself : u.same u = true) (h : u.Within t) : u.isAssignableTo t = true := by
  induction u using induction_on_members with
  | plain u hu _ => exact h.assignable hu (assignable_of_same hself)
  | union ms ih =>
    refine union_assignable fun m hm => ih m hm ?_ (h.of_union hm)
    obtain ⟨n, -, hnm⟩ := exists_same_of_mem hself hm
    exact same_trans (same_symm hnm) hnm
  | intersection ms _ => exact h.assignable rfl (assignable_of_same hself)

/-- A union goes where all its members go. -/
theorem union_assignable_iff :
    (union ms).isAssignableTo t = true ↔ ∀ m ∈ ms, m.isAssignableTo t = true := by
  refine ⟨fun h m hm => ?_, union_assignable⟩
  cases hany : t.isAny with
  | true => exact assignable_of_isAny (.inr hany)
  | false =>
    rcases same_or_of_union_assignable hany h with hsame | hall
    · -- an equal union has an equal member, which goes into it
      cases t with simp only [same, reduceCtorEq] at hsame
      | union ns =>
        obtain ⟨n, hn, hnm⟩ := exists_same_of_mem (sameAll_comm ms ns ▸ hsame) hm
        have hself : n.same n = true := same_trans hnm (same_symm hnm)
        rw [Akin.isAssignableTo_eq (.inr (same_symm hnm)) (.refl _)]
        exact assignable_of_within hself (.member hn .self)
    · exact hall m hm

theorem assignable_union_iff (hs : s.isUnion = false) (hany : s.isAny = false) :
    s.isAssignableTo (union ms) = true ↔ ∃ m ∈ ms, s.isAssignableTo m = true :=
  ⟨exists_of_assignable_union hs hany, fun ⟨_, hm, h⟩ => assignable_union hs hm h⟩

theorem assignable_iff_unionMembers :
    t.isAssignableTo u = true ↔ ∀ m ∈ t.unionMembers, m.isAssignableTo u = true := by
  cases t with
  | union ms => exact union_assignable_iff
  | _ => simp [unionMembers]

theorem assignable_iff_exists_unionMembers (hs : s.isUnion = false) (hany : s.isAny = false) :
    s.isAssignableTo t = true ↔ ∃ m ∈ t.unionMembers, s.isAssignableTo m = true := by
  cases t with
  | union ms => exact assignable_union_iff hs hany
  | _ => simp [unionMembers]

/-! ### Distinct types -/

/-- Of akin types one is enough. -/
theorem forall_mem_distinct {P : Ty → Prop} (hP : ∀ a b : Ty, a.Akin b → P a → P b) :
    (∀ t ∈ distinct ts, P t) ↔ ∀ t ∈ ts, P t := by
  refine ⟨fun h t ht => ?_, fun h t ht => h t (mem_of_mem_distinct ht)⟩
  obtain ⟨u, hu, hut⟩ := exists_mem_distinct ht
  exact hP u t hut (h u hu)

theorem exists_mem_distinct_iff {P : Ty → Prop} (hP : ∀ a b : Ty, a.Akin b → P a → P b) :
    (∃ t ∈ distinct ts, P t) ↔ ∃ t ∈ ts, P t := by
  refine ⟨fun ⟨t, ht, h⟩ => ⟨t, mem_of_mem_distinct ht, h⟩, fun ⟨t, ht, h⟩ => ?_⟩
  obtain ⟨u, hu, hut⟩ := exists_mem_distinct ht
  exact ⟨u, hu, hP t u (Akin.symm hut) h⟩

theorem Akin.assignable_left (h : s.Akin u) (hs : s.isAssignableTo t = true) :
    u.isAssignableTo t = true := h.isAssignableTo_eq (.refl t) ▸ hs

theorem Akin.assignable_right (h : t.Akin u) (hs : s.isAssignableTo t = true) :
    s.isAssignableTo u = true := (Akin.refl s).isAssignableTo_eq h ▸ hs

/-! ### The union of types -/

/-- The union of types goes where all of them go. -/
theorem unionOf_assignable_iff :
    (unionOf ts).isAssignableTo t = true ↔ ∀ u ∈ ts, u.isAssignableTo t = true := by
  have hmembers : (unionOf ts).isAssignableTo t = true ↔
      ∀ m ∈ distinct (ts.flatMap unionMembers), m.isAssignableTo t = true :=
    gather_iff (P := fun u => u.isAssignableTo t = true) (Q := fun ms => ∀ m ∈ ms, m.isAssignableTo t = true)
      (by simp) fun _ => union_assignable_iff
  rw [hmembers, forall_mem_distinct fun _ _ => Akin.assignable_left]
  constructor
  · intro h u hu
    exact assignable_iff_unionMembers.2 fun m hm => h m (List.mem_flatMap.2 ⟨u, hu, hm⟩)
  · intro h m hm
    obtain ⟨u, hu, hm⟩ := List.mem_flatMap.1 hm
    exact assignable_iff_unionMembers.1 (h u hu) m hm

/-- What goes into the union of types and is no union goes into one of them. -/
theorem assignable_unionOf_iff (hs : s.isUnion = false) (hany : s.isAny = false) :
    s.isAssignableTo (unionOf ts) = true ↔ ∃ u ∈ ts, s.isAssignableTo u = true := by
  have hmembers : s.isAssignableTo (unionOf ts) = true ↔
      ∃ m ∈ distinct (ts.flatMap unionMembers), s.isAssignableTo m = true :=
    gather_iff (P := fun u => s.isAssignableTo u = true) (Q := fun ms => ∃ m ∈ ms, s.isAssignableTo m = true)
      (by simp) fun _ => assignable_union_iff hs hany
  rw [hmembers, exists_mem_distinct_iff fun _ _ => Akin.assignable_right]
  constructor
  · rintro ⟨m, hm, h⟩
    obtain ⟨u, hu, hm⟩ := List.mem_flatMap.1 hm
    exact ⟨u, hu, (assignable_iff_exists_unionMembers hs hany).2 ⟨m, hm, h⟩⟩
  · rintro ⟨u, hu, h⟩
    obtain ⟨m, hm, h⟩ := (assignable_iff_exists_unionMembers hs hany).1 h
    exact ⟨m, List.mem_flatMap.2 ⟨u, hu, hm⟩, h⟩

/-! ### Regrouping -/

/-- Lists of types that differ in the order, the repetition and the grouping of types: types may stand
alone or in a union, be it made of them or written as it is. -/
inductive Regrouped : List Ty → List Ty → Prop
  | reorder {ts us : List Ty} (h : ts.Perm us) : Regrouped ts us
  | again {t : Ty} {ts : List Ty} (h : t ∈ ts) : Regrouped (t :: ts) ts
  | joined (ts us : List Ty) : Regrouped (unionOf ts :: us) (ts ++ us)
  | nested (ts us : List Ty) : Regrouped (.union ts :: us) (ts ++ us)
  | symm {ts us : List Ty} (h : Regrouped ts us) : Regrouped us ts
  | trans {ts us vs : List Ty} (h : Regrouped ts us) (h' : Regrouped us vs) : Regrouped ts vs

namespace Regrouped

theorem forall_assignable_iff (h : Regrouped ts us) :
    (∀ u ∈ ts, u.isAssignableTo t = true) ↔ ∀ u ∈ us, u.isAssignableTo t = true := by
  induction h with
  | reorder h => exact forall_congr' fun u => by rw [h.mem_iff]
  | again h =>
    rw [List.forall_mem_cons]
    exact ⟨fun hall => hall.2, fun hall => ⟨hall _ h, hall⟩⟩
  | joined ts us => rw [List.forall_mem_cons, List.forall_mem_append, unionOf_assignable_iff]
  | nested ts us => rw [List.forall_mem_cons, List.forall_mem_append, union_assignable_iff]
  | symm _ ih => exact ih.symm
  | trans _ _ ih ih' => exact ih.trans ih'

theorem exists_assignable_iff (h : Regrouped ts us) (hs : s.isUnion = false) (hany : s.isAny = false) :
    (∃ u ∈ ts, s.isAssignableTo u = true) ↔ ∃ u ∈ us, s.isAssignableTo u = true := by
  induction h with
  | reorder h => exact exists_congr fun u => by rw [h.mem_iff]
  | again h =>
    rw [List.exists_mem_cons_iff]
    exact ⟨fun hex => hex.elim (fun hinto => ⟨_, h, hinto⟩) id, .inr⟩
  | joined ts us =>
    rw [List.exists_mem_cons_iff, assignable_unionOf_iff hs hany]
    simp only [List.mem_append, or_and_right, exists_or]
  | nested ts us =>
    rw [List.exists_mem_cons_iff, assignable_union_iff hs hany]
    simp only [List.mem_append, or_and_right, exists_or]
  | symm _ ih => exact ih.symm
  | trans _ _ ih ih' => exact ih.trans ih'

/-- Regrouped types accept the same. -/
theorem accepts_iff (h : Regrouped ts us) :
    s.isAssignableTo (unionOf ts) = true ↔ s.isAssignableTo (unionOf us) = true := by
  have hplain : ∀ s : Ty, s.isUnion = false →
      (s.isAssignableTo (unionOf ts) = true ↔ s.isAssignableTo (unionOf us) = true) := by
    intro s hs
    cases hany : s.isAny with
    | true => exact iff_of_true (assignable_of_isAny (.inl hany)) (assignable_of_isAny (.inl hany))
    | false =>
      rw [assignable_unionOf_iff hs hany, assignable_unionOf_iff hs hany]
      exact h.exists_assignable_iff hs hany
  induction s using induction_on_members with
  | plain s hs _ => exact hplain s hs
  | union ms ih =>
    rw [union_assignable_iff, union_assignable_iff]
    exact forall₂_congr ih
  | intersection ms _ => exact hplain _ rfl

end Regrouped

/-- The union of types is their join: it goes where all of them go, and what is no union goes into it if it
goes into one of them, `any` into the union of nothing apart. Regrouped types have unions that are accepted
and accept alike. -/
theorem unionOf_join (ts : List Ty) :
    (∀ t, (unionOf ts).isAssignableTo t = true ↔ ∀ u ∈ ts, u.isAssignableTo t = true) ∧
    (∀ s : Ty, s.isUnion = false → (s.isAny = true → ts ≠ []) →
      (s.isAssignableTo (unionOf ts) = true ↔ ∃ u ∈ ts, s.isAssignableTo u = true)) ∧
    ∀ us, Regrouped ts us →
      (∀ t, (unionOf ts).isAssignableTo t = true ↔ (unionOf us).isAssignableTo t = true) ∧
      ∀ s : Ty, s.isAssignableTo (unionOf ts) = true ↔ s.isAssignableTo (unionOf us) = true := by
  refine ⟨fun t => unionOf_assignable_iff, ?_, ?_⟩
  · intro s hs hne
    cases hany : s.isAny with
    | true =>
      obtain ⟨u, hu⟩ := List.exists_mem_of_ne_nil ts (hne hany)
      exact iff_of_true (assignable_of_isAny (.inl hany)) ⟨u, hu, assignable_of_isAny (.inl hany)⟩
    | false => exact assignable_unionOf_iff hs hany
  · intro us h
    refine ⟨fun t => ?_, fun s => h.accepts_iff⟩
    rw [unionOf_assignable_iff, unionOf_assignable_iff]
    exact h.forall_assignable_iff

/-- A text goes into a union in a union, and the union may be written flat and in another order. -/
theorem unionOf_join_nested :
    (literal (.text "a")).isAssignableTo (unionOf [.union [int, .union [string]], int]) = true ∧
      ∀ s : Ty, s.isAssignableTo (unionOf [.union [int, .union [string]], int]) = true ↔
        s.isAssignableTo (unionOf [.union [string], int]) = true := by
  obtain ⟨-, haccepts, hregroups⟩ := unionOf_join [.union [int, .union [string]], int]
  have hmember : int ∈ [.union [string], int] := List.mem_cons_of_mem _ List.mem_cons_self
  refine ⟨(haccepts _ rfl nofun).2 ⟨_, List.mem_cons_self, by decide +kernel⟩, ?_⟩
  exact (hregroups _ ((Regrouped.nested [int, .union [string]] [int]).trans (.again hmember))).2

end Ty

end ScriptCheck
