import ScriptCheck.Proofs.Parsing.SameTurns

/-!
Reading does not depend on labels. On a stream with new labels a step does what it does on the old
one, and its result, its failure and the stream it leaves have the new labels too. The new ids have to
follow each other as the old ones do.
-/

namespace ScriptCheck

open Parse

namespace TokenStream

variable (f : Relabeling) (s : TokenStream)

/-- A stream with new labels. -/
def relabel : TokenStream :=
  { s with
    current := s.current.relabel f
    upcoming := s.upcoming.map (Token.relabel f)
    previousEnd := f.place s.previousEnd
    nextId := f.id s.nextId }

@[simp] theorem kind_relabel : (s.relabel f).kind = s.kind := rfl

@[simp] theorem remaining_relabel : (s.relabel f).remaining = s.remaining := by
  simp [remaining, relabel]

@[simp] theorem next_relabel : (s.relabel f).next = s.next.relabel f := by
  obtain ⟨file, current, upcoming, previousEnd, typeNames, nextId⟩ := s
  cases upcoming <;> rfl

@[simp] theorem register_relabel (name : String) :
    (s.relabel f).register name = (s.register name).relabel f := by
  unfold register
  rw [show (s.relabel f).typeNames = s.typeNames from rfl]
  by_cases h : s.typeNames.contains name
  · rw [if_pos h, if_pos h]
  · rw [if_neg h, if_neg h]; rfl

@[simp] theorem peek_relabel (n : Nat) : (s.relabel f).peek n = (s.peek n).relabel f := by
  have hall : (s.relabel f).current :: (s.relabel f).upcoming =
      (s.current :: s.upcoming).map (Token.relabel f) := rfl
  unfold peek
  rw [hall, List.getElem?_map]
  cases (s.current :: s.upcoming)[n]? with
  | some t => rfl
  | none =>
    show ((s.upcoming.map (Token.relabel f)).getLastD (s.current.relabel f)) = _
    rw [List.getLastD_eq_getLast?, List.getLastD_eq_getLast?, List.getLast?_map]
    cases s.upcoming.getLast? <;> rfl

theorem startsDeclaration_relabel :
    Stmt.startsDeclaration (s.relabel f) = Stmt.startsDeclaration s := by
  unfold Stmt.startsDeclaration
  rw [peek_relabel, peek_relabel]; rfl

end TokenStream

/-- The outcome of a step with new labels; `g` gives its result new labels. -/
def relabelOutcome {α β : Type} (f : Relabeling) (g : α → β) :
    EStateM.Result Failure TokenStream α → EStateM.Result Failure TokenStream β
  | .ok a s => .ok (g a) (s.relabel f)
  | .error e s => .error (e.relabel f) (s.relabel f)

/-- The outcome of a step that has had enough fuel. -/
def Unstuck {α : Type} : EStateM.Result Failure TokenStream α → Prop
  | .ok _ _ => True
  | .error e _ => e ≠ .stuck

/-- Steps in lockstep have the same outcome up to labels, if they have the same fuel or the first has
enough of it. -/
theorem Lockstep.relabeled_of_fuel {c : Terms} (hid : ∀ i, c.labels.id (i + 1) = c.labels.id i + 1)
    {α β : Type} {e : Extent} {g : α → β} {m : Parse α} {m' : Parse β} (h : Lockstep c e g m m')
    (s : TokenStream) (hfuel : c.sameFuel ∨ Unstuck (m s)) :
    m' (s.relabel c.labels) = relabelOutcome c.labels g (m s) := by
  induction h generalizing s with
  | pure a => rfl
  | @bind _ _ _ _ _ _ _ _ m m' _ _ _ _ ihm ihk =>
    cases hm : m s with
    | ok a t =>
      rw [bind_of_ok hm] at hfuel ⊢
      rw [← ihk a t hfuel]
      exact bind_of_ok (by rw [ihm s (.inr (by rw [hm]; trivial)), hm]; rfl)
    | error e t =>
      rw [bind_of_error hm] at hfuel ⊢
      exact bind_of_error (by rw [ihm s (by rw [hm]; exact hfuel), hm]; rfl)
  | part _ ih => exact ih s hfuel
  | current => rfl
  | kind => rfl
  | position => rfl
  | advance =>
    rw [advance_run, TokenStream.next_relabel]; rfl
  | freshId _ =>
    rw [freshId_run, freshId_run, relabelOutcome, TokenStream.relabel, TokenStream.relabel, hid]
  | register name => rw [register_run, TokenStream.register_relabel]; rfl
  | spanFrom start => rfl
  | unexpectedToken => rfl
  | unexpected message => rfl
  | reject cause place => rfl
  | @close k hk =>
    by_cases hs : s.kind = k
    · rw [expect_run hs, expect_run (by rw [TokenStream.kind_relabel, hs]),
        TokenStream.next_relabel]
      rfl
    · rw [expect_fails hs, expect_fails (by rw [TokenStream.kind_relabel]; exact hs)]; rfl
  | stuck => rfl
  | outOfFuel hne => exact absurd rfl (hfuel.resolve_left hne)
  | fuel _ ih =>
    rw [bind_of_ok (remaining_run _)] at hfuel ⊢
    rw [bind_of_ok (remaining_run _), TokenStream.remaining_relabel]
    exact ih _ _ (Nat.le_refl _) (fun _ => rfl) s hfuel
  | lookahead _ _ ih =>
    rw [bind_of_ok (lookahead_run 1 _)] at hfuel ⊢
    rw [bind_of_ok (lookahead_run 1 _), TokenStream.peek_relabel]
    exact ih _ _ ⟨Iff.rfl, Iff.rfl⟩ s hfuel
  | @orElse _ _ _ _ g _ m m' x y x' y' _ _ _ ihm ihx ihy =>
    cases hm : m s with
    | ok a t =>
      have hm' : m' (s.relabel c.labels) = .ok (g a) (t.relabel c.labels) := by
        rw [ihm s (.inr (by rw [hm]; trivial)), hm]; rfl
      rw [bind_of_ok hm, bind_of_ok (kind_run t)] at hfuel ⊢
      rw [bind_of_ok hm', bind_of_ok (kind_run _), TokenStream.kind_relabel]
      by_cases hk : t.kind = .kwElse
      · rw [if_pos hk] at hfuel ⊢
        rw [if_pos hk]; exact ihx a t hfuel
      · rw [if_neg hk] at hfuel ⊢
        rw [if_neg hk]; exact ihy a t hfuel
    | error e t =>
      rw [bind_of_error hm] at hfuel ⊢
      exact bind_of_error (by rw [ihm s (by rw [hm]; exact hfuel), hm]; rfl)
  | plain _ _ ihd ihe =>
    rw [Stmt.parsePlain_run] at hfuel ⊢
    rw [Stmt.parsePlain_run, TokenStream.startsDeclaration_relabel]
    by_cases hd : Stmt.startsDeclaration s = true
    · rw [if_pos hd] at hfuel ⊢
      rw [if_pos hd]; exact ihd s hfuel
    · rw [if_neg hd] at hfuel ⊢
      rw [if_neg hd]; exact ihe s hfuel

/-- Steps in lockstep that have the same fuel have the same outcome up to labels. -/
theorem Lockstep.relabeled {c : Terms} (hid : ∀ i, c.labels.id (i + 1) = c.labels.id i + 1)
    (hfuel : c.sameFuel) {α β : Type} {e : Extent} {g : α → β} {m : Parse α} {m' : Parse β}
    (h : Lockstep c e g m m') (s : TokenStream) :
    m' (s.relabel c.labels) = relabelOutcome c.labels g (m s) :=
  h.relabeled_of_fuel hid s (.inl hfuel)

end ScriptCheck
