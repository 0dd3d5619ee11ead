import ScriptCheck.Number.Binary64

/-!
Numbers read from text. An integer is an optional sign and decimal digits, within the range of a
signed 64-bit word. A floating-point number is an optional sign before a decimal with an optional
fraction and exponent, or before one of the words for infinity and for NaN in any case; its value is
the number nearest to the decimal.
-/

namespace ScriptCheck

/-- Whether a character is one of the ten ASCII digits. -/
def isDigit (c : Char) : Bool := '0' ≤ c && c ≤ '9'

/-- The value of an ASCII digit. -/
def digitValue (c : Char) : Nat := c.toNat - '0'.toNat

/-- The number that a list of digits writes. -/
def ofDigits (cs : List Char) : Nat := cs.foldl (fun n c => 10 * n + digitValue c) 0

/-- An optional sign, and whether it is a minus. -/
def readSign : List Char → Bool × List Char
  | [] => (false, [])
  | c :: cs => if c = '-' then (true, cs) else if c = '+' then (false, cs) else (false, c :: cs)

/-- One more than the largest integer, and the least one without its sign. -/
def integerLimit : Nat := powTwo 63

/-- The integer that a text writes, if it writes one in range. -/
def integer? (text : String) : Option Int :=
  let (negative, digits) := readSign text.toList
  if digits.isEmpty || !digits.all isDigit then none
  else
    let n := ofDigits digits
    if negative then if n ≤ integerLimit then some (-(n : Int)) else none
    else if n < integerLimit then some n else none

/-- A decimal number without sign, `digits * 10 ^ exponent`. -/
structure Decimal where
  digits : Nat
  exponent : Int
deriving DecidableEq

namespace Decimal

/-- The exponent after a decimal: nothing, or the letter `e` in either case, an optional sign and
digits. Nothing may follow it. -/
def readExponent : List Char → Option Int
  | [] => some 0
  | c :: cs =>
    if c = 'e' || c = 'E' then
      let (negative, digits) := readSign cs
      if digits.isEmpty || !digits.all isDigit then none
      else some (if negative then -(ofDigits digits : Int) else ofDigits digits)
    else none

/-- The fraction after the whole part: nothing, or a point and digits, which may be missing. -/
def readFraction : List Char → List Char × List Char
  | [] => ([], [])
  | c :: cs => if c = '.' then (cs.takeWhile isDigit, cs.dropWhile isDigit) else ([], c :: cs)

/-- Digits with an optional fraction and exponent. At least one digit stands before the exponent. -/
def read? (cs : List Char) : Option Decimal :=
  let whole := cs.takeWhile isDigit
  let (fraction, rest) := readFraction (cs.dropWhile isDigit)
  if (whole ++ fraction).isEmpty then none
  else (readExponent rest).map fun e => ⟨ofDigits (whole ++ fraction), e - fraction.length⟩

/-- Decimals of this many places before the point are infinite, and of as many zeros after the
point are zero, whatever their digits. -/
def horizon : Nat := 400

/-- The floating-point number nearest to a decimal. -/
def nearest (negative : Bool) (d : Decimal) : Binary64 :=
  let size : Int := (Nat.toDigits 10 d.digits).length + d.exponent
  if d.digits = 0 || size < -(horizon : Int) then .zero negative
  else if (horizon : Int) < size then .infinite negative
  else .ofRatio negative (d.digits * powTen d.exponent.toNat) (powTen (-d.exponent).toNat)

end Decimal

/-- The floating-point number that a text writes. -/
def float? (text : String) : Option Binary64 :=
  let (negative, body) := readSign text.toList
  let word := String.ofList (body.map Char.toLower)
  if word = "inf" || word = "infinity" then some (.infinite negative)
  else if word = "nan" then some .nan
  else (Decimal.read? body).map (·.nearest negative)

end ScriptCheck
