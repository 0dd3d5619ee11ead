import ScriptCheck.Proofs.Parsing.Steps

/-!
A statement starts at its first token: where the token before it ended makes no difference. The end of
the token read last is asked for only behind a token that has been read.
-/

namespace ScriptCheck

open Parse

/-- A step that is done in the same way wherever the token before the current one ended. -/
def FromFirstToken {α : Type} (m : Parse α) : Prop :=
  ∀ ⦃s t : TokenStream⦄ ⦃a : α⦄ (p : Position), s.upcoming ≠ [] → m s = .ok a t →
    m { s with previousEnd := p } = .ok a t

namespace FromFirstToken

variable {α β : Type} {m : Parse α} {k : α → Parse β}

/-- What follows a step finds the same stream. -/
theorem andThen (h : FromFirstToken m) : FromFirstToken (m >>= k) := by
  intro s t b p hs hrun
  cases hm : m s with
  | ok a u =>
    rw [bind_of_ok hm] at hrun
    rw [bind_of_ok (h p hs hm), hrun]
  | error e u => rw [bind_of_error hm] at hrun; cases hrun

/-- What only looks at the stream may come first. -/
theorem afterLook {look : TokenStream → α} {m : Parse α} (hm : ∀ s, m s = .ok (look s) s)
    (hlook : ∀ s p, look { s with previousEnd := p } = look s) (h : ∀ a, FromFirstToken (k a)) :
    FromFirstToken (m >>= k) := by
  intro s t b p hs hrun
  rw [bind_of_ok (hm s)] at hrun
  rw [bind_of_ok (hm _), hlook]
  exact h _ p hs hrun

theorem afterKind {k : TokenKind → Parse β} (h : ∀ a, FromFirstToken (k a)) :
    FromFirstToken (kind >>= k) := afterLook kind_run (fun _ _ => rfl) h

theorem afterCurrent {k : Token → Parse β} (h : ∀ a, FromFirstToken (k a)) :
    FromFirstToken (current >>= k) := afterLook current_run (fun _ _ => rfl) h

theorem afterRemaining {k : Nat → Parse β} (h : ∀ a, FromFirstToken (k a)) :
    FromFirstToken (remaining >>= k) := afterLook remaining_run (fun _ _ => rfl) h

theorem afterPosition {k : Position → Parse β} (h : ∀ a, FromFirstToken (k a)) :
    FromFirstToken (position >>= k) := afterLook position_run (fun _ _ => rfl) h

theorem afterFreshId {k : Nat → Parse β} (h : ∀ a, FromFirstToken (k a)) :
    FromFirstToken (freshId >>= k) := by
  intro s t b p hs hrun
  rw [bind_of_ok (freshId_run s)] at hrun
  rw [bind_of_ok (freshId_run _)]
  have hs' : { s with nextId := s.nextId + 1 }.upcoming ≠ [] := hs
  exact h s.nextId p hs' hrun

theorem discarded (h : FromFirstToken m) : FromFirstToken (discard m) := by
  intro s t b p hs hrun
  cases hm : m s with
  | ok a u =>
    rw [discard_of_ok hm] at hrun
    rw [discard_of_ok (h p hs hm), hrun]
  | error e u => rw [discard_of_error hm] at hrun; cases hrun

theorem fails {e : TokenStream → Failure} (hm : ∀ s, m s = .error (e s) s) : FromFirstToken m := by
  intro s t a p hs hrun
  rw [hm] at hrun
  cases hrun

theorem advanced : FromFirstToken advance := by
  intro s t a p hs hrun
  obtain ⟨u, us, hu⟩ := List.exists_cons_of_ne_nil hs
  rw [advance_run, TokenStream.next, hu] at hrun
  rw [advance_run, TokenStream.next, hu]
  exact hrun

theorem ite {c : Prop} [Decidable c] {x y : Parse α} (hx : FromFirstToken x)
    (hy : FromFirstToken y) : FromFirstToken (if c then x else y) := by
  by_cases hc : c
  · rw [if_pos hc]; exact hx
  · rw [if_neg hc]; exact hy

theorem expected (wanted : TokenKind) : FromFirstToken (expect wanted) :=
  afterKind fun _ => .ite .advanced (.fails unexpectedToken_run)

theorem number : FromFirstToken number := by
  refine afterCurrent fun t => ?_
  cases Literal.ofNumber? t.value with
  | some literal => exact andThen (discarded advanced)
  | none => exact .fails fun _ => rfl

end FromFirstToken

open FromFirstToken

theorem TypeRef.parse_fromFirstToken (p : Power) : FromFirstToken (parse p) := by
  refine afterRemaining fun n => andThen (afterKind fun k => ?_)
  cases k
  case identifier | kwNull | kwUndefined => exact andThen advanced
  case openCurly => exact andThen (expected _)
  case openParen => exact andThen (expected _)
  case number | text | kwTrue | kwFalse =>
    refine afterCurrent fun t => ?_
    split
    · exact andThen number
    all_goals exact andThen (discarded advanced)
  all_goals exact fails (unexpected_run _)

theorem Expr.parse_fromFirstToken (p : Power) : FromFirstToken (parse p) := by
  refine afterRemaining fun n => andThen (afterKind fun k => ?_)
  cases k
  case number | identifier | text | kwTrue | kwFalse | kwNull | kwUndefined | kwThis =>
    refine afterFreshId fun id => afterCurrent fun t => ?_
    dsimp only
    split
    case h_1 => exact andThen number
    case h_9 => exact fails unexpectedToken_run
    all_goals exact andThen (discarded advanced)
  case dash | bang | plusPlus | minusMinus => exact andThen advanced
  case openParen => exact andThen (discarded advanced)
  case openBracket => exact andThen advanced
  case openCurly => exact andThen advanced
  case kwNew => exact andThen advanced
  all_goals exact fails unexpectedToken_run

theorem Stmt.parsePlain_fromFirstToken : FromFirstToken parsePlain := by
  have htyped : FromFirstToken parseTyped :=
    afterPosition fun _ => andThen (TypeRef.parse_fromFirstToken _)
  have hexpr : FromFirstToken parseExpr := andThen (Expr.parse_fromFirstToken _)
  intro s t a p hs hrun
  rw [parsePlain_run] at hrun ⊢
  rw [show startsDeclaration { s with previousEnd := p } = startsDeclaration s from rfl]
  split at hrun
  · next h => rw [if_pos h]; exact htyped p hs hrun
  · next h => rw [if_neg h]; exact hexpr p hs hrun

/-- Reading a statement starts at its first token. -/
theorem Stmt.parse_fromFirstToken : FromFirstToken parse := by
  refine afterRemaining fun n => afterKind fun k => ?_
  have hblock {self : Parse Stmt} : FromFirstToken (parseBlockOf self) := andThen (expected _)
  have hfn {self : Parse Stmt} : FromFirstToken (parseFn self) := andThen (expected _)
  cases k
  case openCurly => exact andThen hblock
  case kwFn => exact andThen hfn
  case kwConst | kwLet | kwIf | kwWhile | kwFor | kwReturn | kwBreak | kwContinue | kwClass
    | kwInterface | kwType => exact andThen advanced
  all_goals exact parsePlain_fromFirstToken

end ScriptCheck
