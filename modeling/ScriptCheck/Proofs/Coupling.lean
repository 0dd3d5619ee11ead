import ScriptCheck.Scope

/-!
Two runs side by side. Two steps are coupled if, from related states, whatever the first does the
second does too: where the first succeeds, the second gives the corresponding result in a related
state, and where the first fails, the second fails in the same way, up to labels. Some failures of the
first may be left out of the comparison, and some may be shown not to happen.
-/

namespace ScriptCheck

variable {ε σ α β γ δ : Type}

/-! ### Running a sequence -/

section

variable {m : EStateM ε σ α} {s s' : σ} {a : α} {e : ε}

theorem bind_of_ok {k : α → EStateM ε σ β} (h : m s = .ok a s') : (m >>= k) s = k a s' := by
  show EStateM.bind m k s = k a s'
  rw [EStateM.bind, h]

theorem bind_of_error {k : α → EStateM ε σ β} (h : m s = .error e s') :
    (m >>= k) s = .error e s' := by
  show EStateM.bind m k s = .error e s'
  rw [EStateM.bind, h]

theorem ok_of_bind {k : α → EStateM ε σ β} {b : β} (h : (m >>= k) s = .ok b s') :
    ∃ a s₁, m s = .ok a s₁ ∧ k a s₁ = .ok b s' := by
  cases hm : m s with
  | ok a s₁ =>
    rw [bind_of_ok hm] at h
    exact ⟨a, s₁, rfl, h⟩
  | error e s₁ =>
    rw [bind_of_error hm] at h
    cases h

theorem between_ok {enter leave : σ → σ} (h : between enter leave m s = .ok a s') :
    ∃ s₁, m (enter s) = .ok a s₁ ∧ s' = leave s₁ := by
  unfold between at h
  cases hm : m (enter s) with
  | ok b s₁ =>
    rw [hm] at h
    cases h
    exact ⟨s₁, rfl, rfl⟩
  | error e s₁ =>
    rw [hm] at h
    cases h

theorem discard_of_ok (h : m s = .ok a s') : (discard m : EStateM ε σ Unit) s = .ok () s' := by
  show EStateM.map (Function.const α ()) m s = .ok () s'
  rw [EStateM.map, h]

theorem discard_of_error (h : m s = .error e s') :
    (discard m : EStateM ε σ Unit) s = .error e s' := by
  show EStateM.map (Function.const α ()) m s = .error e s'
  rw [EStateM.map, h]

end

/-! ### Coupled steps -/

/-- How the failures of two runs are compared: the label that a failure gets in the second run, the
failures that may happen at all, and those that the second run need not share. -/
structure Blame (ε : Type) where
  relabel : ε → ε
  admits : ε → Prop
  drops : ε → Prop

/-- The outcomes of two runs agree. -/
def Agree (x : Blame ε) (R : σ → σ → Prop) (g : α → β) (P : α → Prop) :
    EStateM.Result ε σ α → EStateM.Result ε σ β → Prop
  | .ok a t, r => ∃ t', r = .ok (g a) t' ∧ R t t' ∧ P a
  | .error e _, r => x.admits e ∧ (x.drops e ∨ ∃ t', r = .error (x.relabel e) t')

theorem Agree.of_ok {x : Blame ε} {R : σ → σ → Prop} {g : α → β} {P : α → Prop}
    {run : EStateM.Result ε σ α} {run' : EStateM.Result ε σ β} {a : α} {t : σ}
    (h : Agree x R g P run run') (hrun : run = .ok a t) : ∃ t', run' = .ok (g a) t' ∧ R t t' ∧ P a := by
  rw [hrun] at h
  exact h

theorem Agree.of_error {x : Blame ε} {R : σ → σ → Prop} {g : α → β} {P : α → Prop}
    {run : EStateM.Result ε σ α} {run' : EStateM.Result ε σ β} {e : ε} {t : σ}
    (h : Agree x R g P run run') (hrun : run = .error e t) :
    x.admits e ∧ (x.drops e ∨ ∃ t', run' = .error (x.relabel e) t') := by
  rw [hrun] at h
  exact h

theorem Agree.mono {x : Blame ε} {R S : σ → σ → Prop} {g : α → β} {P : α → Prop}
    {a : EStateM.Result ε σ α} {b : EStateM.Result ε σ β} (h : Agree x R g P a b)
    (hR : ∀ s s', R s s' → S s s') : Agree x S g P a b := by
  cases a with
  | ok a t =>
    obtain ⟨t', hb, ht, ha⟩ := h
    exact ⟨t', hb, hR t t' ht, ha⟩
  | error e t => exact h

/-- Two steps whose outcomes agree: from states related by `R` they come to states related by `R'`.
The map gives the second result from the first, and `P` is shown of the first. -/
def Couples (x : Blame ε) (R R' : σ → σ → Prop) (g : α → β) (P : α → Prop) (m : EStateM ε σ α)
    (m' : EStateM ε σ β) : Prop :=
  ∀ ⦃s s' : σ⦄, R s s' → Agree x R' g P (m s) (m' s')

namespace Couples

variable {x : Blame ε} {R R₁ R' : σ → σ → Prop} {g : α → β} {h : γ → δ} {P : α → Prop}
  {Q : γ → Prop} {m : EStateM ε σ α} {m' : EStateM ε σ β} {k : α → EStateM ε σ γ}
  {k' : β → EStateM ε σ δ}

theorem pure {a : α} (ha : P a) : Couples x R R g P (Pure.pure a) (Pure.pure (g a)) :=
  fun _ s' hs => ⟨s', rfl, hs, ha⟩

/-- The result of the second step may be written differently. -/
theorem result {a : α} {b : β} (hb : b = g a) (ha : P a) :
    Couples x R R g P (Pure.pure a) (Pure.pure b) := by
  rw [hb]
  exact pure ha

theorem bind (hm : Couples x R R₁ g P m m')
    (hk : ∀ a, P a → Couples x R₁ R' h Q (k a) (k' (g a))) :
    Couples x R R' h Q (m >>= k) (m' >>= k') := by
  intro s s' hs
  have hfirst := hm hs
  cases hms : m s with
  | ok a t =>
    rw [hms] at hfirst
    obtain ⟨t', hm', ht, ha⟩ := hfirst
    rw [bind_of_ok hms, bind_of_ok hm']
    exact hk a ha ht
  | error e t =>
    rw [hms] at hfirst
    rw [bind_of_error hms]
    refine ⟨hfirst.1, hfirst.2.imp_right fun ⟨t', hm'⟩ => ⟨t', ?_⟩⟩
    exact bind_of_error hm'

theorem fails {e : ε} (he : x.admits e) :
    Couples x R R' g P (throw e) (throw (x.relabel e)) :=
  fun _ s' _ => ⟨he, .inr ⟨s', rfl⟩⟩

theorem changes {f f' : σ → σ} (hf : ∀ s s', R s s' → R' (f s) (f' s')) :
    Couples x R R' (fun u => u) (fun _ => True) (modify f) (modify f') :=
  fun s s' hs => ⟨f' s', rfl, hf s s' hs, trivial⟩

theorem ite {c : Prop} [Decidable c] {y z : EStateM ε σ α} {y' z' : EStateM ε σ β}
    (hy : Couples x R R' g P y y') (hz : Couples x R R' g P z z') :
    Couples x R R' g P (if c then y else z) (if c then y' else z') := by
  by_cases hc : c
  · rw [if_pos hc, if_pos hc]; exact hy
  · rw [if_neg hc, if_neg hc]; exact hz

theorem between {S S' : σ → σ → Prop} {enter leave enter' leave' : σ → σ}
    (hm : Couples x S S' g P m m') (henter : ∀ s s', R s s' → S (enter s) (enter' s'))
    (hleave : ∀ s s', S' s s' → R' (leave s) (leave' s')) :
    Couples x R R' g P (between enter leave m) (between enter' leave' m') := by
  intro s s' hs
  have hbody := hm (henter s s' hs)
  unfold ScriptCheck.between
  cases hms : m (enter s) with
  | ok a t =>
    rw [hms] at hbody
    obtain ⟨t', hm', ht, ha⟩ := hbody
    rw [hm']
    exact ⟨leave' t', rfl, hleave t t' ht, ha⟩
  | error e t =>
    rw [hms] at hbody
    refine ⟨hbody.1, hbody.2.imp_right fun ⟨t', hm'⟩ => ⟨leave' t', ?_⟩⟩
    rw [hm']

/-- A step may depend on the state. -/
theorem reading {k : σ → EStateM ε σ α} {k' : σ → EStateM ε σ β}
    (h : ∀ s s', R s s' → Couples x R R' g P (k s) (k' s')) :
    Couples x R R' g P (get >>= k) (get >>= k') :=
  fun s s' hs => h s s' hs hs

/-- Less may be asked of the states before, and less be said of those behind. -/
theorem mono {S S' : σ → σ → Prop} (hm : Couples x R R' g P m m') (hR : ∀ s s', S s s' → R s s')
    (hR' : ∀ s s', R' s s' → S' s s') : Couples x S S' g P m m' :=
  fun s s' hs => (hm (hR s s' hs)).mono hR'

end Couples

/-! ### Coupled outcomes -/

/-- The outcomes of two computations without a state agree. -/
def Mirrors (x : Blame ε) : Except ε α → Except ε α → Prop
  | .ok a, r => r = .ok a
  | .error e, r => x.admits e ∧ r = .error (x.relabel e)

namespace Mirrors

variable {x : Blame ε} {r r' : Except ε α} {k k' : α → Except ε β}

theorem bind (hr : Mirrors x r r') (hk : ∀ a, Mirrors x (k a) (k' a)) :
    Mirrors x (r >>= k) (r' >>= k') := by
  cases r with
  | ok a =>
    obtain rfl : r' = .ok a := hr
    exact hk a
  | error e =>
    obtain ⟨he, rfl⟩ := hr
    exact ⟨he, rfl⟩

theorem ok (a : α) : Mirrors x (.ok a) (.ok a) := rfl

theorem error {e : ε} (he : x.admits e) :
    Mirrors x (.error e : Except ε α) (.error (x.relabel e)) := ⟨he, rfl⟩

end Mirrors

end ScriptCheck
