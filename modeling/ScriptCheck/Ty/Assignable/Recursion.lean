import ScriptCheck.Ty.Assignable

/-!
Assignability as a recursion without fuel. The parts of a type are smaller than the type, so are the
types in its shape, and so every step asks only about types that are smaller together. Main
statement: `isAssignableTo` is the step applied to `isAssignableTo` itself.
-/

namespace ScriptCheck

namespace Ty

/-! ### Parts are smaller -/

theorem size_pos (t : Ty) : 0 < t.size := by
  cases t <;> simp only [size] <;> omega

theorem size_le_sizeAll {t : Ty} {ts : List Ty} (h : t ∈ ts) : t.size ≤ sizeAll ts := by
  induction ts with
  | nil => cases h
  | cons u us ih =>
    simp only [sizeAll]
    rcases List.mem_cons.1 h with rfl | h
    · omega
    · have := ih h
      omega

theorem size_le_sizeProps {p : Property Ty} {ps : List (Property Ty)} (h : p ∈ ps) :
    p.type.size ≤ sizeProps ps := by
  induction ps with
  | nil => cases h
  | cons q qs ih =>
    obtain ⟨name, type, writable⟩ := q
    simp only [sizeProps]
    rcases List.mem_cons.1 h with rfl | h
    · simp only
      omega
    · have := ih h
      omega

theorem size_le_sizeIndex {e : IndexKey × Ty} {es : List (IndexKey × Ty)} (h : e ∈ es) :
    e.2.size ≤ sizeIndex es := by
  induction es with
  | nil => cases h
  | cons d ds ih =>
    obtain ⟨key, type⟩ := d
    simp only [sizeIndex]
    rcases List.mem_cons.1 h with rfl | h
    · simp only
      omega
    · have := ih h
      omega

theorem size_le_sizeParams {p : String × Ty} {ps : List (String × Ty)} (h : p ∈ ps) :
    p.2.size ≤ sizeParams ps := by
  induction ps with
  | nil => cases h
  | cons q qs ih =>
    obtain ⟨name, type⟩ := q
    simp only [sizeParams]
    rcases List.mem_cons.1 h with rfl | h
    · simp only
      omega
    · have := ih h
      omega

theorem size_le_sizeMembers {m : Member Ty} {ms : List (Member Ty)} (h : m ∈ ms) :
    m.type.size ≤ sizeMembers ms := by
  induction ms with
  | nil => cases h
  | cons n ns ih =>
    obtain ⟨name, type, modifiers, writable⟩ := n
    simp only [sizeMembers]
    rcases List.mem_cons.1 h with rfl | h
    · simp only
      omega
    · have := ih h
      omega

theorem arrayElement?_size {t s : Ty} (h : t.arrayElement? = some (some s)) : s.size < t.size := by
  cases t <;> simp only [arrayElement?, reduceCtorEq] at h
  case array element =>
    cases h
    simp only [size, sizeOption]
    omega
  case named name args =>
    split at h
    · cases args with
      | nil => simp at h
      | cons a as =>
        simp only [List.head?_cons, Option.some.injEq] at h
        subst h
        simp only [size, sizeAll]
        omega
    · cases h

end Ty

/-! ### Shapes are smaller -/

namespace Shape

/-- Every type in the shape is smaller than the bound. -/
def Below (n : Nat) (s : Shape) : Prop :=
  (∀ e ∈ s.props, e.2.size < n) ∧ (∀ e ∈ s.index, e.2.size < n)

theorem mem_foldl_addNew {κ : Type} [DecidableEq κ] {e : κ × Ty} {es as : List (κ × Ty)}
    (h : e ∈ es.foldl addNew as) : e ∈ as ∨ e ∈ es := by
  induction es generalizing as with
  | nil => exact .inl h
  | cons d ds ih =>
    rcases ih h with h | h
    · unfold addNew at h
      split at h
      · exact .inl h
      · rcases List.mem_append.1 h with h | h
        · exact .inl h
        · exact .inr (List.mem_cons.2 (.inl (List.mem_singleton.1 h)))
    · exact .inr (List.mem_cons_of_mem _ h)

theorem Below.mono {m n : Nat} {s : Shape} (h : s.Below m) (hmn : m ≤ n) : s.Below n :=
  ⟨fun e he => Nat.lt_of_lt_of_le (h.1 e he) hmn, fun e he => Nat.lt_of_lt_of_le (h.2 e he) hmn⟩

theorem Below.merge {n : Nat} {a b : Shape} (ha : a.Below n) (hb : b.Below n) :
    (a.merge b).Below n :=
  ⟨fun e he => (mem_foldl_addNew he).elim (ha.1 e) (hb.1 e),
    fun e he => (mem_foldl_addNew he).elim (ha.2 e) (hb.2 e)⟩

theorem Below.foldl_merge {n : Nat} {a : Shape} {bs : List Shape} (ha : a.Below n)
    (hbs : ∀ b ∈ bs, b.Below n) : (bs.foldl Shape.merge a).Below n := by
  induction bs generalizing a with
  | nil => exact ha
  | cons b bs ih =>
    exact ih (ha.merge (hbs b List.mem_cons_self)) fun c hc => hbs c (List.mem_cons_of_mem _ hc)

theorem property?_mem {s : Shape} {name : String} {t : Ty} (h : s.property? name = some t) :
    ∃ e ∈ s.props, e.2 = t := by
  obtain ⟨e, he, rfl⟩ := Option.map_eq_some_iff.1 h
  exact ⟨e, List.mem_of_find?_eq_some he, rfl⟩

end Shape

namespace Ty

mutual

theorem shape?_below : (t : Ty) → (s : Shape) → t.shape? = some s → s.Below t.size
  | .interface ⟨_, props, index⟩, s, h => by
    simp only [shape?, Option.some.injEq] at h
    subst h
    simp only [size]
    refine ⟨fun e he => ?_, fun e he => ?_⟩
    · obtain ⟨p, hp, rfl⟩ := List.mem_map.1 he
      have := size_le_sizeProps hp
      simp only
      omega
    · have : e.2.size ≤ sizeIndex index := size_le_sizeIndex he
      omega
  | .classType ⟨_, members, mixins, superclass⟩, s, h => by
    simp only [shape?, Option.some.injEq] at h
    subst h
    have hsuper := optionShape?_below superclass
    have hmixins := shapes_below mixins
    simp only [size]
    refine Shape.Below.foldl_merge ⟨fun e he => ?_, fun e he => by cases he⟩ fun b hb => ?_
    · obtain ⟨m, hm, rfl⟩ := List.mem_map.1 he
      have := size_le_sizeMembers (List.mem_filter.1 hm).1
      simp only
      omega
    · rcases List.mem_append.1 hb with hb | hb
      · exact (hsuper b (Option.mem_toList.1 hb)).mono (by omega)
      · exact (hmixins b hb).mono (by omega)
  | .intersection members, s, h => by
    simp only [shape?] at h
    obtain ⟨bs, hbs, rfl⟩ := Option.map_eq_some_iff.1 h
    have hmembers := allShapes?_below members bs hbs
    simp only [size]
    refine Shape.Below.foldl_merge ⟨fun _ he => (by cases he), fun _ he => (by cases he)⟩ fun b hb => ?_
    exact (hmembers b hb).mono (by omega)
  | .named _ _, _, h | .union _, _, h | .array _, _, h | .function _, _, h | .literal _, _, h => by
    simp [shape?] at h
termination_by structural t => t

theorem optionShape?_below : (t : Option Ty) → (s : Shape) → optionShape? t = some s →
    s.Below (sizeOption t)
  | some t, s, h => by
    simp only [optionShape?] at h
    simp only [sizeOption]
    exact shape?_below t s h
  | none, _, h => by simp [optionShape?] at h
termination_by structural t => t

theorem shapes_below : (ts : List Ty) → (s : Shape) → s ∈ shapes ts → s.Below (sizeAll ts)
  | [], _, h => by simp [shapes] at h
  | t :: ts, s, h => by
    simp only [shapes, List.mem_append, Option.mem_toList] at h
    simp only [sizeAll]
    rcases h with h | h
    · exact (shape?_below t s h).mono (by omega)
    · exact (shapes_below ts s h).mono (by omega)
termination_by structural ts => ts

theorem allShapes?_below : (ts : List Ty) → (ss : List Shape) → allShapes? ts = some ss →
    ∀ s ∈ ss, s.Below (sizeAll ts)
  | [], ss, h => by
    simp only [allShapes?, Option.some.injEq] at h
    subst h
    intro s hs
    cases hs
  | t :: ts, ss, h => by
    simp only [allShapes?] at h
    split at h
    · rename_i s rest hs hrest
      cases h
      have hhead := shape?_below t s hs
      have htail := allShapes?_below ts rest hrest
      intro b hb
      simp only [sizeAll]
      rcases List.mem_cons.1 hb with rfl | hb
      · exact hhead.mono (by omega)
      · exact (htail b hb).mono (by omega)
    · cases h
termination_by structural ts => ts

end

end Ty

/-! ### Steps ask about smaller types -/

theorem all_congr_of_mem {α : Type} {f g : α → Bool} {as : List α} (h : ∀ a ∈ as, f a = g a) :
    as.all f = as.all g := by
  induction as with
  | nil => rfl
  | cons a as ih =>
    rw [List.all_cons, List.all_cons, h a List.mem_cons_self,
      ih fun b hb => h b (List.mem_cons_of_mem _ hb)]

theorem any_congr_of_mem {α : Type} {f g : α → Bool} {as : List α} (h : ∀ a ∈ as, f a = g a) :
    as.any f = as.any g := by
  induction as with
  | nil => rfl
  | cons a as ih =>
    rw [List.any_cons, List.any_cons, h a List.mem_cons_self,
      ih fun b hb => h b (List.mem_cons_of_mem _ hb)]

/-- Shapes are compared through their types only. -/
theorem Shape.satisfies_congr {f g : Ty → Ty → Bool} {m n : Nat} {source target : Shape}
    (hs : source.Below m) (ht : target.Below n)
    (h : ∀ a b : Ty, a.size < m → b.size < n → f a b = g a b) :
    source.satisfies f target = source.satisfies g target := by
  simp only [Shape.satisfies]
  congr 1
  · refine all_congr_of_mem fun e he => ?_
    split
    · rename_i s hprop
      obtain ⟨d, hd, rfl⟩ := Shape.property?_mem hprop
      exact h _ _ (hs.1 d hd) (ht.1 e he)
    · rfl
  · refine all_congr_of_mem fun e he => ?_
    rw [any_congr_of_mem fun d hd => by rw [h d.2 e.2 (hs.2 d hd) (ht.2 e he)],
      all_congr_of_mem fun d hd => h d.2 e.2 (hs.1 d hd) (ht.2 e he)]

namespace Ty

variable {f g : Ty → Ty → Bool} {source target : Ty}

theorem shapesSatisfy_congr
    (h : ∀ a b : Ty, a.size + b.size < source.size + target.size → f a b = g a b) :
    shapesSatisfy f source target = shapesSatisfy g source target := by
  unfold shapesSatisfy
  split
  · rename_i s t hs ht
    exact Shape.satisfies_congr (shape?_below _ _ hs) (shape?_below _ _ ht)
      fun a b ha hb => h a b (by omega)
  · rfl

theorem plainInto_congr
    (h : ∀ a b : Ty, a.size + b.size < source.size + target.size → f a b = g a b) :
    plainInto f source target = plainInto g source target := by
  unfold plainInto
  split
  · rename_i name args name' args'
    congr 3
    refine all_congr_of_mem fun e he => h _ _ ?_
    have := size_le_sizeAll (List.of_mem_zip he).1
    have := size_le_sizeAll (List.of_mem_zip he).2
    simp only [size]
    omega
  · rfl
  · rfl
  · rfl
  · rfl
  · rename_i c c'
    obtain ⟨name, members, mixins, superclass⟩ := c
    congr 1
    · congr 1
      cases superclass with
      | none => rfl
      | some s =>
        refine h _ _ ?_
        simp only [size, sizeOption]
        omega
    · refine any_congr_of_mem fun t ht => h _ _ ?_
      have : t.size ≤ sizeAll mixins := size_le_sizeAll ht
      simp only [size]
      omega
  · exact shapesSatisfy_congr h
  · exact shapesSatisfy_congr h
  · rename_i a b
    obtain ⟨params, result⟩ := a
    obtain ⟨params', result'⟩ := b
    simp only [size] at h
    congr 1
    · congr 1
      refine all_congr_of_mem fun e he => h _ _ ?_
      have : e.1.2.size ≤ sizeParams params := size_le_sizeParams (List.of_mem_zip he).1
      have : e.2.2.size ≤ sizeParams params' := size_le_sizeParams (List.of_mem_zip he).2
      omega
    · refine h _ _ ?_
      have := size_pos result
      simp only
      omega
  · rfl

theorem elementInto_congr
    (h : ∀ a b : Ty, a.size + b.size < source.size + target.size → f a b = g a b) :
    elementInto f source target = elementInto g source target := by
  unfold elementInto
  split
  · rename_i members
    congr 1
    · refine any_congr_of_mem fun t ht => h _ _ ?_
      have := size_le_sizeAll ht
      simp only [size]
      omega
    · exact shapesSatisfy_congr h
  · rfl
  · split
    · rename_i s t hs ht
      have := arrayElement?_size hs
      have := arrayElement?_size ht
      exact h _ _ (by omega)
    · rfl
    · exact plainInto_congr h

/-- A step asks only about types that are smaller together. -/
theorem intoStep_congr
    (h : ∀ a b : Ty, a.size + b.size < source.size + target.size → f a b = g a b) :
    intoStep f source target = intoStep g source target := by
  unfold intoStep
  split
  · rfl
  · split
    · refine all_congr_of_mem fun t ht => h _ _ ?_
      have := size_le_sizeAll ht
      simp only [size]
      omega
    · split
      · refine any_congr_of_mem fun t ht => h _ _ ?_
        have := size_le_sizeAll ht
        simp only [size]
        omega
      · refine all_congr_of_mem fun t ht => h _ _ ?_
        have := size_le_sizeAll ht
        simp only [size]
        omega
      · exact elementInto_congr h

/-- Fuel beyond the sizes changes nothing. -/
theorem intoWithin_eq_of_le : (m n : Nat) → (source target : Ty) →
    source.size + target.size ≤ m → source.size + target.size ≤ n →
    intoWithin m source target = intoWithin n source target
  | 0, _, source, _, hm, _ => absurd (size_pos source) (by omega)
  | _, 0, source, _, _, hn => absurd (size_pos source) (by omega)
  | m + 1, n + 1, source, target, hm, hn =>
    intoStep_congr fun a b hab => intoWithin_eq_of_le m n a b (by omega) (by omega)

/-- Assignability is one step whose questions are assignability again. -/
theorem isAssignableTo_eq_intoStep (source target : Ty) :
    source.isAssignableTo target = intoStep isAssignableTo source target := by
  have hpos := size_pos source
  obtain ⟨n, hn⟩ : ∃ n, source.size + target.size = n + 1 :=
    ⟨source.size + target.size - 1, by omega⟩
  rw [isAssignableTo, hn, intoWithin]
  exact intoStep_congr fun a b hab => intoWithin_eq_of_le _ _ a b (by omega) (Nat.le_refl _)

end Ty

end ScriptCheck
