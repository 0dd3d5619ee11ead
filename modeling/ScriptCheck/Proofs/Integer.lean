import ScriptCheck.Literal
import ScriptCheck.Number.Reading

/-!
Integers as text. The decimal digits of a natural number below the limit of integers read back as
that number; they hold digits only, so that no sign and no point stands among them.
-/

namespace ScriptCheck

theorem isDigit_eq (c : Char) : isDigit c = c.isDigit := rfl

theorem isDigit_of_mem_natText {n : Nat} {c : Char} (h : c ∈ natText n) : isDigit c = true := by
  rw [isDigit_eq]
  exact Nat.isDigit_of_mem_toDigits (by decide) (by decide) h

theorem ofDigits_natText (n : Nat) : ofDigits (natText n) = n :=
  Nat.ofDigitChars_ten_toDigits

/-- Digits have no sign in front. -/
theorem readSign_natText (n : Nat) : readSign (natText n) = (false, natText n) := by
  have hd : ∀ c ∈ natText n, isDigit c = true := fun c => isDigit_of_mem_natText
  cases ht : natText n with
  | nil => rfl
  | cons c cs =>
    have hc : isDigit c = true := hd c (by rw [ht]; exact List.mem_cons_self ..)
    have hm : c ≠ '-' := by rintro rfl; revert hc; decide
    have hp : c ≠ '+' := by rintro rfl; revert hc; decide
    rw [readSign, if_neg hm, if_neg hp]

/-- The digits of a number in range read back as it. -/
theorem integer?_natText {n : Nat} (h : n < integerLimit) :
    integer? (String.ofList (natText n)) = some (n : Int) := by
  have hne : natText n ≠ [] := Nat.toDigits_ne_nil
  have hall : (natText n).all isDigit = true := List.all_eq_true.2 fun c => isDigit_of_mem_natText
  rw [integer?, String.toList_ofList, readSign_natText]
  simp [hne, hall, ofDigits_natText, h]

/-- No point stands among digits. -/
theorem natText_contains_point (n : Nat) : (natText n).contains '.' = false := by
  rw [List.contains_eq_mem, decide_eq_false_iff_not]
  intro h
  have hd := isDigit_of_mem_natText h
  revert hd; decide

end ScriptCheck
