import ScriptCheck.Proofs.Relabel.Failures

/-!
Tables whose keys are ids, under new labels and beside other tables. If no two ids get the same label,
a table with new labels holds under them what it held before. A table in which another one is
continued holds the entries of both, as long as they have no id in common.
-/

namespace ScriptCheck

namespace Table

variable {α : Type}

/-- A table with new ids. -/
def relabel (f : Relabeling) (t : Table Nat α) : Table Nat α :=
  ⟨t.entries.map fun e => (f.id e.1, e.2)⟩

theorem put_relabel {f : Relabeling} (hf : Function.Injective f.id) (i : Nat) (a : α)
    (es : List (Nat × α)) : put (f.id i) a (es.map fun e => (f.id e.1, e.2)) =
      (put i a es).map fun e => (f.id e.1, e.2) := by
  induction es with
  | nil => rfl
  | cons e es ih =>
    rw [List.map_cons, put, put]
    by_cases h : e.1 = i
    · rw [if_pos h, if_pos (congrArg f.id h)]
      rfl
    · rw [if_neg h, if_neg fun heq => h (hf heq), ih]
      rfl

theorem seek_relabel {f : Relabeling} (hf : Function.Injective f.id) (i : Nat)
    (es : List (Nat × α)) : seek (f.id i) (es.map fun e => (f.id e.1, e.2)) = seek i es := by
  induction es with
  | nil => rfl
  | cons e es ih =>
    rw [List.map_cons, seek, seek, ih]
    by_cases h : e.1 = i
    · rw [if_pos h, if_pos (congrArg f.id h)]
    · rw [if_neg h, if_neg fun heq => h (hf heq)]

theorem insert_relabel {f : Relabeling} (hf : Function.Injective f.id) (t : Table Nat α) (i : Nat)
    (a : α) : (t.relabel f).insert (f.id i) a = (t.insert i a).relabel f :=
  congrArg mk (put_relabel hf i a t.entries)

theorem get?_relabel {f : Relabeling} (hf : Function.Injective f.id) (t : Table Nat α) (i : Nat) :
    (t.relabel f).get? (f.id i) = t.get? i :=
  seek_relabel hf i t.entries

/-- The entries of one table and behind them those of another. -/
def append (t u : Table Nat α) : Table Nat α := ⟨t.entries ++ u.entries⟩

theorem seek_append (i : Nat) (es fs : List (Nat × α)) :
    seek i (es ++ fs) = (seek i es).or (seek i fs) := by
  induction es with
  | nil => rfl
  | cons e es ih =>
    rw [List.cons_append, seek, seek, ih]
    split <;> rfl

theorem put_append {i : Nat} (a : α) {es : List (Nat × α)} (fs : List (Nat × α))
    (h : seek i es = none) : put i a (es ++ fs) = es ++ put i a fs := by
  induction es with
  | nil => rfl
  | cons e es ih =>
    rw [seek] at h
    by_cases he : e.1 = i
    · rw [if_pos he] at h
      cases h
    · rw [if_neg he] at h
      rw [List.cons_append, put, if_neg he, ih h, List.cons_append]

theorem get?_append (t u : Table Nat α) (i : Nat) :
    (t.append u).get? i = (t.get? i).or (u.get? i) := seek_append i t.entries u.entries

theorem insert_append {t u : Table Nat α} {i : Nat} (a : α) (h : t.get? i = none) :
    (t.append u).insert i a = t.append (u.insert i a) := congrArg mk (put_append a u.entries h)

theorem append_empty (t : Table Nat α) : t.append .empty = t := congrArg mk (List.append_nil _)

/-- The third table holds the entries of the first two, which have no key in common. -/
structure IsUnion (t u v : Table Nat α) : Prop where
  get? : ∀ i, v.get? i = (t.get? i).or (u.get? i)
  disjoint : ∀ i, t.get? i = none ∨ u.get? i = none

theorem IsUnion.left {t u v : Table Nat α} (h : IsUnion t u v) {i : Nat} {a : α}
    (hi : t.get? i = some a) : v.get? i = some a := by
  rw [h.get?, hi]
  rfl

theorem IsUnion.right {t u v : Table Nat α} (h : IsUnion t u v) {i : Nat} {a : α}
    (hi : u.get? i = some a) : v.get? i = some a := by
  rcases h.disjoint i with hnone | hnone
  · rw [h.get?, hnone, hi]
    rfl
  · rw [hnone] at hi
    cases hi

/-- The second table continues an old one with the entries of the first, which stand under the given
ids. -/
structure Continues (old : Table Nat α) (ids : List Nat) (t t' : Table Nat α) : Prop where
  eq : t' = old.append t
  within : ∀ i ∉ ids, t.get? i = none

theorem Continues.start (old : Table Nat α) (ids : List Nat) : Continues old ids .empty old :=
  ⟨old.append_empty.symm, fun _ _ => rfl⟩

theorem Continues.isUnion {old t t' : Table Nat α} {ids : List Nat} (h : Continues old ids t t')
    (hold : ∀ i ∈ ids, old.get? i = none) : IsUnion old t t' := by
  refine ⟨fun i => ?_, fun i => ?_⟩
  · rw [h.eq, get?_append]
  · by_cases hi : i ∈ ids
    · exact .inl (hold i hi)
    · exact .inr (h.within i hi)

end Table

namespace Relabeling

variable {f : Relabeling} {α : Type}

/-- A table with new labels goes on with them. -/
theorem follows_relabel (hf : Function.Injective f.id) :
    f.Follows (fun _ => True) fun (t t' : Table Nat α) => t' = t.relabel f := by
  intro t t' i a h _
  rw [h, Table.insert_relabel hf]

/-- A table that continues another goes on with new ids. -/
theorem follows_continues (hf : ∀ i, f.id i = i) {old : Table Nat α} {ids : List Nat}
    (hold : ∀ i ∈ ids, old.get? i = none) : f.Follows (· ∈ ids) (Table.Continues old ids) := by
  intro t t' i a h hi
  refine ⟨?_, fun j hj => ?_⟩
  · rw [h.eq, hf, Table.insert_append a (hold i hi)]
  · rw [Table.get?_insert, if_neg fun heq : i = j => hj (heq ▸ hi), h.within j hj]

theorem injective_shiftIds (k : Nat) : Function.Injective (shiftIds k).id :=
  fun _ _ h => Nat.add_right_cancel h

end Relabeling

end ScriptCheck
