import ScriptCheck.Proofs.Ty.Akin

/-!
Assignability does not tell akin types apart. It compares types by their names and by their parts; the
parts of akin types are akin, so that each rule that applies to two types applies to types akin to them.
-/

namespace ScriptCheck

/-! ### Lists that stand beside each other -/

section

variable {α β : Type} {R : α → β → Prop} {xs : List α} {ys : List β} {f : α → Bool} {g : β → Bool}

theorem all_of_forall₂ (h : List.Forall₂ R xs ys)
    (hfg : ∀ x ∈ xs, ∀ y, R x y → f x = true → g y = true) (hall : xs.all f = true) :
    ys.all g = true := by
  induction h with
  | nil => rfl
  | @cons x y _ _ hxy _ ih =>
    rw [List.forall_mem_cons] at hfg
    rw [List.all_cons, Bool.and_eq_true] at hall ⊢
    exact ⟨hfg.1 y hxy hall.1, ih hfg.2 hall.2⟩

theorem any_of_forall₂ (h : List.Forall₂ R xs ys)
    (hfg : ∀ x ∈ xs, ∀ y, R x y → f x = true → g y = true) (hany : xs.any f = true) :
    ys.any g = true := by
  induction h with
  | nil => cases hany
  | @cons x y _ _ hxy _ ih =>
    rw [List.forall_mem_cons] at hfg
    rw [List.any_cons, Bool.or_eq_true] at hany ⊢
    exact hany.imp (hfg.1 y hxy) (ih hfg.2)

theorem forall₂_zip_zip {S : α → β → Prop} {us : List α} {vs : List β} (h : List.Forall₂ R xs ys)
    (h' : List.Forall₂ S us vs) :
    List.Forall₂ (fun x y => R x.1 y.1 ∧ S x.2 y.2) (xs.zip us) (ys.zip vs) := by
  induction h generalizing us vs with
  | nil => exact .nil
  | cons hxy _ ih =>
    cases h' with
    | nil => exact .nil
    | cons huv hrest => exact .cons ⟨hxy, huv⟩ (ih hrest)

end

namespace Ty

/-- Types akin to two types of which one goes into the other do so too, if the two are smaller together
than a bound. -/
def AkinBelow (n : Nat) : Prop :=
  ∀ a b : Ty, a.size + b.size < n → ∀ a' b' : Ty, a.Akin a' → b.Akin b' →
    a.isAssignableTo b = true → a'.isAssignableTo b' = true

variable {n : Nat} {a b a' b' : Ty}

/-! ### Rules -/

/-- A shape that satisfies another one is as good as a shape akin to it. -/
theorem satisfies_akin (ih : AkinBelow n) {k m : Nat} (hn : k + m ≤ n) {s t s' t' : Shape}
    (hs : s.Akin s') (ht : t.Akin t') (hsk : s.Below k) (htm : t.Below m)
    (h : s.satisfies isAssignableTo t = true) : s'.satisfies isAssignableTo t' = true := by
  simp only [Shape.satisfies, Bool.and_eq_true] at h ⊢
  refine ⟨all_of_forall₂ ht.props (fun e he e' hee => ?_) h.1,
    all_of_forall₂ ht.index (fun e he e' hee => ?_) h.2⟩
  · have hprop := hs.property? e.1
    have hmem : ∀ u, s.property? e.1 = some u → u.size < k := by
      intro u hu
      obtain ⟨d, hd, rfl⟩ := Shape.property?_mem hu
      exact hsk.1 d hd
    have := htm.1 e he
    rw [← hee.1]
    generalize s.property? e.1 = x, s'.property? e.1 = y at hprop hmem
    cases hprop with
    | none => exact id
    | @some u u' huu =>
      have := hmem u rfl
      exact ih u e.2 (by omega) u' e'.2 huu hee.2
  · have := htm.2 e he
    rw [Bool.or_eq_true, Bool.or_eq_true, ← hee.1]
    refine Or.imp (any_of_forall₂ hs.index fun d hd d' hdd => ?_) ?_
    · have := hsk.2 d hd
      rw [Bool.and_eq_true, Bool.and_eq_true, ← hdd.1]
      exact And.imp_right (ih d.2 e.2 (by omega) d'.2 e'.2 hdd.2 hee.2)
    · rw [Bool.and_eq_true, Bool.and_eq_true]
      refine And.imp_right (all_of_forall₂ hs.props fun d hd d' hdd => ?_)
      have := hsk.1 d hd
      exact ih d.2 e.2 (by omega) d'.2 e'.2 hdd.2 hee.2

theorem shapesSatisfy_akin (ih : AkinBelow n) (hn : a.size + b.size ≤ n) (ha : a.Akin a')
    (hb : b.Akin b') (h : shapesSatisfy isAssignableTo a b = true) :
    shapesSatisfy isAssignableTo a' b' = true := by
  have hsource := shape?_akin a ha
  have htarget := shape?_akin b hb
  have hsmall := shape?_below a
  have hsmall' := shape?_below b
  unfold shapesSatisfy at h ⊢
  generalize a.shape? = x, a'.shape? = x' at hsource hsmall h
  generalize b.shape? = y, b'.shape? = y' at htarget hsmall' h
  cases hsource with
  | none => cases h
  | some hs =>
    cases htarget with
    | none => cases h
    | some ht => exact satisfies_akin ih hn hs ht (hsmall _ rfl) (hsmall' _ rfl) h

theorem all_zip_akin (ih : AkinBelow n) {as bs as' bs' : List Ty} (hn : sizeAll as + sizeAll bs < n)
    (has : List.Forall₂ Akin as as') (hbs : List.Forall₂ Akin bs bs')
    (h : ((as.zip bs).all fun (s, t) => s.isAssignableTo t) = true) :
    ((as'.zip bs').all fun (s, t) => s.isAssignableTo t) = true := by
  refine all_of_forall₂ (forall₂_zip_zip has hbs) (fun e he e' hee => ?_) h
  have := size_le_sizeAll (List.of_mem_zip he).1
  have := size_le_sizeAll (List.of_mem_zip he).2
  exact ih e.1 e.2 (by omega) e'.1 e'.2 hee.1 hee.2

/-- Parameters are compared the other way round. -/
theorem all_zip_params_akin (ih : AkinBelow n) {ps qs ps' qs' : List (String × Ty)}
    (hn : sizeParams ps + sizeParams qs < n) (hps : List.Forall₂ AkinEntry ps ps')
    (hqs : List.Forall₂ AkinEntry qs qs')
    (h : ((ps.zip qs).all fun (s, t) => t.2.isAssignableTo s.2) = true) :
    ((ps'.zip qs').all fun (s, t) => t.2.isAssignableTo s.2) = true := by
  refine all_of_forall₂ (forall₂_zip_zip hps hqs) (fun e he e' hee => ?_) h
  have := size_le_sizeParams (List.of_mem_zip he).1
  have := size_le_sizeParams (List.of_mem_zip he).2
  exact ih e.2.2 e.1.2 (by omega) e'.2.2 e'.1.2 hee.2.2 hee.1.2

theorem plainInto_akin (ih : AkinBelow n) (hn : a.size + b.size ≤ n) (ha : a.Akin a')
    (hb : b.Akin b') (h : plainInto isAssignableTo a b = true) :
    plainInto isAssignableTo a' b' = true := by
  have hname := ha.nominalName?
  have hname' := hb.nominalName?
  unfold plainInto at h
  split at h
  · cases ha.parts with
    | named has =>
      cases hb.parts with
      | named hbs =>
        simp only [size] at hn
        simp only [plainInto, Bool.and_eq_true, Bool.or_eq_true, beq_iff_eq, List.isEmpty_iff_length_eq_zero,
          ← has.length_eq, ← hbs.length_eq] at h ⊢
        exact h.imp_right (Or.imp_right (And.imp_right (all_zip_akin ih (by omega) has hbs)))
  · cases ha.parts
    cases hb.parts
    exact h
  · cases ha.parts
    cases hb.parts
    exact h
  · cases ha.parts
    cases hb.parts
    exact h
  · cases ha.parts
    cases hb.parts
    exact h
  · -- a class goes where what it extends or mixes in goes
    cases ha.parts with
    | @classType name _ _ xs _ super _ _ hmixins hsuper =>
      cases hb.parts
      simp only [size] at hn
      simp only [plainInto, Bool.or_eq_true, or_assoc] at h ⊢
      refine h.imp_right (Or.imp ?_ (any_of_forall₂ hmixins fun x hx x' hxx => ?_))
      · cases hsuper with
        | none => exact id
        | some hss =>
          simp only [sizeOption] at hn
          exact ih _ _ (by simp only [size]; omega) _ _ hss hb
      · have := size_le_sizeAll hx
        exact ih _ _ (by simp only [size]; omega) _ _ hxx hb
  · cases ha.parts
    cases hb.parts
    exact shapesSatisfy_akin ih hn ha hb h
  · cases ha.parts
    cases hb.parts
    exact shapesSatisfy_akin ih hn ha hb h
  · cases ha.parts with
    | function hparams hresult =>
      cases hb.parts with
      | function hparams' hresult' =>
        simp only [size] at hn
        simp only [plainInto, Bool.and_eq_true, decide_eq_true_eq, ← hparams.length_eq,
          ← hparams'.length_eq] at h ⊢
        exact ⟨⟨h.1.1, all_zip_params_akin ih (by omega) hparams hparams' h.1.2⟩,
          ih _ _ (by omega) _ _ hresult hresult' h.2⟩
  · cases h

/-- Two arrays are compared by their elements, and other types as they are. -/
def arraysInto (into : Ty → Ty → Bool) (source target : Ty) : Bool :=
  match source.arrayElement?, target.arrayElement? with
  | some (some s), some (some t) => into s t
  | some _, some _ => true
  | _, _ => plainInto into source target

theorem elementInto_eq_arraysInto {into : Ty → Ty → Bool} (hi : a.isIntersection = false)
    (hl : a.isLiteral = false) : elementInto into a b = arraysInto into a b := by
  cases a with
  | intersection => cases hi
  | literal => cases hl
  | _ => rfl

theorem arraysInto_akin (ih : AkinBelow n) (hn : a.size + b.size ≤ n) (ha : a.Akin a')
    (hb : b.Akin b') (h : arraysInto isAssignableTo a b = true) :
    arraysInto isAssignableTo a' b' = true := by
  have hplain := plainInto_akin ih hn ha hb
  have hsource := ha.arrayElement?
  have htarget := hb.arrayElement?
  have hsmall : ∀ s, a.arrayElement? = some (some s) → s.size < a.size := fun _ => arrayElement?_size
  have hsmall' : ∀ t, b.arrayElement? = some (some t) → t.size < b.size := fun _ => arrayElement?_size
  unfold arraysInto at h ⊢
  generalize a.arrayElement? = x, a'.arrayElement? = x' at hsource hsmall h
  generalize b.arrayElement? = y, b'.arrayElement? = y' at htarget hsmall' h
  cases hsource with
  | none =>
    cases htarget with
    | none => exact hplain h
    | some _ => exact hplain h
  | some hs =>
    cases htarget with
    | none => cases hs <;> exact hplain h
    | some ht =>
      cases hs with
      | none => cases ht <;> rfl
      | @some s s' hss =>
        cases ht with
        | none => rfl
        | @some t t' htt =>
          have := hsmall s rfl
          have := hsmall' t rfl
          exact ih s t (by omega) s' t' hss htt h

theorem elementInto_akin (ih : AkinBelow n) (hn : a.size + b.size ≤ n) (ha : a.Akin a')
    (hb : b.Akin b') (h : elementInto isAssignableTo a b = true) :
    elementInto isAssignableTo a' b' = true := by
  have harrays := arraysInto_akin ih hn ha hb
  cases ha.parts with
  | intersection hmembers =>
    rw [elementInto, Bool.or_eq_true] at h ⊢
    refine h.imp (any_of_forall₂ hmembers fun x hx x' hxx => ?_) (shapesSatisfy_akin ih hn ha hb)
    have := size_le_sizeAll hx
    simp only [size] at hn
    exact ih x b (by omega) x' b' hxx hb
  | literal hname =>
    rw [elementInto, ← hname, ← hb.isNamed]
    exact h
  | named _ => exact harrays h
  | union _ => exact harrays h
  | array _ => exact harrays h
  | interface _ _ => exact harrays h
  | function _ _ => exact harrays h
  | classType _ _ _ => exact harrays h

/-! ### Assignability -/

/-- What goes into an intersection and is no union goes into all its members, unless the two are
equal. -/
theorem same_or_of_assignable_intersection {ms : List Ty} (ha : a.isUnion = false) (hany : a.isAny = false)
    (h : a.isAssignableTo (intersection ms) = true) :
    a.same (intersection ms) = true ∨ ∀ m ∈ ms, a.isAssignableTo m = true := by
  have htarget : (intersection ms).isAny = false := rfl
  rw [isAssignableTo_eq_intoStep] at h
  unfold intoStep at h
  by_cases hsame : a.same (intersection ms) = true
  · exact .inl hsame
  · rw [if_neg (by simpa [hany, htarget] using hsame)] at h
    refine .inr ?_
    cases a with
    | union => cases ha
    | _ => exact List.all_eq_true.1 h

theorem assignable_of_isAny (h : a.isAny = true ∨ b.isAny = true) : a.isAssignableTo b = true := by
  rw [isAssignableTo_eq_intoStep]
  unfold intoStep
  rcases h with h | h <;> simp [h]

/-- One step of the induction: a rule for two types is a rule for types akin to them. -/
theorem akinBelow_succ (ih : AkinBelow n) : AkinBelow (n + 1) := by
  intro a b hn a' b' ha hb h
  have hn := Nat.le_of_lt_succ hn
  by_cases hany : a.isAny = true ∨ b.isAny = true
  · refine assignable_of_isAny ?_
    rwa [← show a.isAny = a'.isAny from ha.isNamed _, ← show b.isAny = b'.isAny from hb.isNamed _]
  simp only [not_or, Bool.not_eq_true] at hany
  by_cases hsame : a.same b = true
  · exact assignable_of_same (ha.symm.same_left (Akin.same_right hsame hb))
  have hau' := ha.isUnion
  cases hau : a.isUnion with
  | true =>
    cases ha.parts with
    | union hmembers =>
      have hall := (same_or_of_union_assignable hany.2 h).resolve_left hsame
      refine union_assignable (List.all_eq_true.1 (all_of_forall₂ hmembers (fun x hx x' hxx => ?_)
        (List.all_eq_true.2 hall)))
      have := size_le_sizeAll hx
      simp only [size] at hn
      exact ih x b (by omega) x' b' hxx hb
    | _ => cases hau
  | false =>
    rw [hau] at hau'
    cases hb.parts with
    | union hmembers =>
      have hexists := exists_of_assignable_union hau hany.1 h
      have hexists' := any_of_forall₂ hmembers (g := (a'.isAssignableTo ·)) (fun x hx x' hxx => ?_)
        (List.any_eq_true.2 hexists)
      · obtain ⟨x', hx', hinto⟩ := List.any_eq_true.1 hexists'
        exact assignable_union hau'.symm hx' hinto
      · have := size_le_sizeAll hx
        simp only [size] at hn
        exact ih a x (by omega) a' x' ha hxx
    | intersection hmembers =>
      have hall := (same_or_of_assignable_intersection hau hany.1 h).resolve_left hsame
      refine assignable_intersection hau'.symm (List.all_eq_true.1
        (all_of_forall₂ hmembers (fun x hx x' hxx => ?_) (List.all_eq_true.2 hall)))
      have := size_le_sizeAll hx
      simp only [size] at hn
      exact ih a x (by omega) a' x' ha hxx
    | _ =>
      have helement := (same_or_element_of_assignable hau rfl rfl hany.1 hany.2 h).resolve_left hsame
      exact assignable_of_element hau'.symm rfl rfl (elementInto_akin ih hn ha hb helement)

theorem akinBelow (n : Nat) : AkinBelow n := by
  induction n with
  | zero => exact fun a b hn => absurd hn (Nat.not_lt_zero _)
  | succ n ih => exact akinBelow_succ ih

/-- Assignability does not tell akin types apart. -/
theorem Akin.isAssignableTo_eq (ha : a.Akin a') (hb : b.Akin b') :
    a.isAssignableTo b = a'.isAssignableTo b' := by
  rw [Bool.eq_iff_iff]
  exact ⟨akinBelow _ a b (Nat.lt_succ_self _) a' b' ha hb,
    akinBelow _ a' b' (Nat.lt_succ_self _) a b ha.symm hb.symm⟩

end Ty

end ScriptCheck
