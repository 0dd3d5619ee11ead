import ScriptCheck.Proofs.Coupling

/-!
What one run does. A step is described by a condition on the state before it, a condition on its result
and the state behind it, and a condition on the state in which it fails; a sequence of steps is described
by what its steps are described by.
-/

namespace ScriptCheck

variable {ε σ α β : Type}

/-- From a state in `P` a step comes to a result and a state in `Q`, or it fails in a state in `E`. -/
def Triple (P : σ → Prop) (m : EStateM ε σ α) (Q : α → σ → Prop) (E : σ → Prop) : Prop :=
  ∀ s, P s →
    match m s with
    | .ok a t => Q a t
    | .error _ t => E t

namespace Triple

variable {P P' : σ → Prop} {Q Q' : α → σ → Prop} {R : β → σ → Prop} {E E' : σ → Prop}
  {m : EStateM ε σ α} {k : α → EStateM ε σ β}

/-- What a step that succeeds is described by. -/
theorem of_ok (h : Triple P m Q E) {s t : σ} {a : α} (hs : P s) (hm : m s = .ok a t) : Q a t := by
  have hrun := h s hs
  rw [hm] at hrun
  exact hrun

theorem of_error (h : Triple P m Q E) {s t : σ} {e : ε} (hs : P s) (hm : m s = .error e t) : E t := by
  have hrun := h s hs
  rw [hm] at hrun
  exact hrun

theorem intro (hok : ∀ s a t, P s → m s = .ok a t → Q a t)
    (herror : ∀ s e t, P s → m s = .error e t → E t) : Triple P m Q E := by
  intro s hs
  cases hm : m s with
  | ok a t => exact hok s a t hs hm
  | error e t => exact herror s e t hs hm

theorem mono (h : Triple P m Q E) (hP : ∀ s, P' s → P s) (hQ : ∀ a s, Q a s → Q' a s)
    (hE : ∀ s, E s → E' s) : Triple P' m Q' E' :=
  .intro (fun _ _ _ hs hm => hQ _ _ (h.of_ok (hP _ hs) hm))
    (fun _ _ _ hs hm => hE _ (h.of_error (hP _ hs) hm))

theorem pure {a : α} (h : ∀ s, P s → Q a s) : Triple P (Pure.pure a : EStateM ε σ α) Q E := h

theorem bind (hm : Triple P m Q E) (hk : ∀ a, Triple (Q a) (k a) R E) :
    Triple P (m >>= k) R E := by
  intro s hs
  cases hms : m s with
  | ok a t =>
    rw [bind_of_ok hms]
    exact hk a t (hm.of_ok hs hms)
  | error e t =>
    rw [bind_of_error hms]
    exact hm.of_error hs hms

theorem fails {e : ε} (h : ∀ s, P s → E s) : Triple P (throw e : EStateM ε σ α) Q E := h

theorem modified {f : σ → σ} {Q : PUnit → σ → Prop} (h : ∀ s, P s → Q ⟨⟩ (f s)) :
    Triple P (modify f : EStateM ε σ PUnit) Q E := h

/-- A step may depend on the state. -/
theorem reading {k : σ → EStateM ε σ β} (h : ∀ s, P s → Triple (· = s) (k s) R E) :
    Triple P (get >>= k) R E := fun s hs => h s hs s rfl

theorem ite {c : Prop} [Decidable c] {x y : EStateM ε σ α} (hx : Triple P x Q E)
    (hy : Triple P y Q E) : Triple P (if c then x else y) Q E := by
  by_cases hc : c
  · rw [if_pos hc]
    exact hx
  · rw [if_neg hc]
    exact hy

/-- A step between entering and leaving, from each state by itself. -/
theorem between {enter leave : σ → σ}
    (h : ∀ s, P s →
      Triple (· = enter s) m (fun a t => Q a (leave t)) (fun t => E (leave t))) :
    Triple P (between enter leave m) Q E := by
  intro s hs
  unfold ScriptCheck.between
  cases hm : m (enter s) with
  | ok a t => exact (h s hs).of_ok rfl hm
  | error e t => exact (h s hs).of_error rfl hm

end Triple

/-! ### Conditions kept -/

/-- A step keeps each condition of a kind, whether or not it fails. -/
def KeepsEach (C : (σ → Prop) → Prop) (m : EStateM ε σ α) : Prop := ∀ P, C P → Triple P m (fun _ => P) P

namespace KeepsEach

variable {C D : (σ → Prop) → Prop} {m : EStateM ε σ α} {k : α → EStateM ε σ β}

theorem imp (h : KeepsEach C m) (hCD : ∀ P, D P → C P) : KeepsEach D m := fun P hP => h P (hCD P hP)

theorem pure (a : α) : KeepsEach C (Pure.pure a : EStateM ε σ α) := fun _ _ => .pure fun _ h => h

theorem fails (e : ε) : KeepsEach C (throw e : EStateM ε σ α) := fun _ _ => .fails fun _ h => h

theorem bind (hm : KeepsEach C m) (hk : ∀ a, KeepsEach C (k a)) : KeepsEach C (m >>= k) :=
  fun P hP => .bind (hm P hP) fun a => hk a P hP

theorem reading {k : σ → EStateM ε σ β} (hk : ∀ s, KeepsEach C (k s)) : KeepsEach C (get >>= k) :=
  fun P hP => .reading fun s hs => (hk s P hP).mono (fun _ ht => ht ▸ hs) (fun _ _ h => h) fun _ h => h

theorem ite {c : Prop} [Decidable c] {x y : EStateM ε σ α} (hx : KeepsEach C x) (hy : KeepsEach C y) :
    KeepsEach C (if c then x else y) := fun P hP => .ite (hx P hP) (hy P hP)

end KeepsEach

end ScriptCheck
