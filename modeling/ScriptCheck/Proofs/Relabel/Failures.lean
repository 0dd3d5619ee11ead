import ScriptCheck.Proofs.Coupling
import ScriptCheck.Proofs.Relabel.Syntax

/-!
Failures and notes of two runs with different labels. The second run fails for the same cause at the new
place; none of the failures is a missing symbol, which no stage but binding could report. What is noted
under an id in the first run is noted under its new label in the second.
-/

namespace ScriptCheck

/-- Whether a cause is a missing symbol. -/
def Cause.isMissingSymbol : Cause → Bool
  | .symbolNotFound _ => true
  | _ => false

/-- A failure that is no missing symbol. -/
def Blameless (e : Failure) : Prop := ∀ name place, e ≠ .of (.symbolNotFound name) place

theorem blameless_stuck : Blameless .stuck := nofun

theorem blameless_of {cause : Cause} (h : cause.isMissingSymbol = false) (place : Position) :
    Blameless (.of cause place) := by
  intro name place' heq
  cases heq
  cases h

namespace Relabeling

variable (f : Relabeling)

/-- How the diagnostics of two runs are compared. -/
def blame : Blame Diagnostic :=
  ⟨Diagnostic.relabel f, fun d => Blameless (.rejected d), fun _ => False⟩

/-- How the failures of two runs are compared. -/
def failureBlame : Blame Failure := ⟨Failure.relabel f, Blameless, fun _ => False⟩

/-- Two tables stay related if both note the same under a fresh id and its new label. -/
def Follows {α : Type} (fresh : Nat → Prop) (related : Table Nat α → Table Nat α → Prop) : Prop :=
  ∀ ⦃t t' : Table Nat α⦄ ⦃i : Nat⦄ (a : α), related t t' → fresh i →
    related (t.insert i a) (t'.insert (f.id i) a)

end Relabeling

end ScriptCheck
