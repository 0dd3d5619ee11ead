/-!
Binary floating-point numbers of 64 bits. A finite number is a sign and `significand * 2 ^ exponent`
in canonical form: the significand has 53 bits, or fewer when the exponent is the least one. The
number nearest to a fraction is found in exact arithmetic on naturals, a half going to the even
neighbour.
-/

namespace ScriptCheck

/-- A power of two. -/
def powTwo (k : Nat) : Nat := Nat.pow 2 k

/-- A power of ten. -/
def powTen (k : Nat) : Nat := Nat.pow 10 k

/-- A 64-bit binary floating-point number. -/
inductive Binary64 where
  | nan
  | infinite (negative : Bool)
  | finite (negative : Bool) (significand : Nat) (exponent : Int)
deriving DecidableEq

namespace Binary64

/-- The exponent of the smallest numbers. -/
def leastExponent : Int := -1074

/-- The exponent of the largest numbers. -/
def greatestExponent : Int := 971

/-- Zero, of either sign. -/
def zero (negative : Bool) : Binary64 := .finite negative 0 leastExponent

/-- Equality of values: zeros of either sign are equal, and NaN differs from itself. -/
def same : Binary64 → Binary64 → Bool
  | .infinite a, .infinite b => a == b
  | .finite a m p, .finite b n q => m == n && p == q && (a == b || m == 0)
  | _, _ => false

/-- The quotient rounded to the nearest natural number, a half going to the even neighbour. -/
def roundDiv (num den : Nat) : Nat :=
  let quotient := num / den
  let double := 2 * (num % den)
  if double < den then quotient
  else if den < double then quotient + 1
  else quotient + quotient % 2

/-- The exponent of the leading bit of a positive fraction: `2 ^ e ≤ num / den < 2 ^ (e + 1)`. -/
def leadingExponent (num den : Nat) : Int :=
  let e : Int := (num.log2 : Int) - den.log2
  if den * powTwo e.toNat ≤ num * powTwo (-e).toNat then e else e - 1

/-- The finite number `significand * 2 ^ exponent` whose significand may have grown to 54 bits by
rounding, or infinity where the exponent is too large. -/
def carry (negative : Bool) (significand : Nat) (exponent : Int) : Binary64 :=
  let (m, q) :=
    if significand = powTwo 53 then (powTwo 52, exponent + 1) else (significand, exponent)
  if greatestExponent < q then .infinite negative else .finite negative m q

/-- The number nearest to a fraction. -/
def ofRatio (negative : Bool) (num den : Nat) : Binary64 :=
  if num = 0 then zero negative
  else
    let q := max (leadingExponent num den - 52) leastExponent
    carry negative (roundDiv (num * powTwo (-q).toNat) (den * powTwo q.toNat)) q

end Binary64

end ScriptCheck
