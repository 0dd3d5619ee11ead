import ScriptCheck.Number.Binary64

/-!
Numbers written as text. A whole floating-point number is written with all its digits and `.0`; any
other finite one with the fewest digits that read back as it, the nearest of those, never with an
exponent. Of two decimals that are equally short and equally near the upper one is taken.
-/

namespace ScriptCheck

/-- The decimal digits of a natural number. -/
def natText (n : Nat) : List Char := Nat.toDigits 10 n

/-- The decimal digits of an integer after a minus where it is negative. -/
def intText : Int → List Char
  | .ofNat n => natText n
  | .negSucc n => '-' :: natText (n + 1)

namespace Shortest

/-- Compares `a * 10 ^ g` with `n * 2 ^ j`, exactly. -/
def compareScaled (a : Nat) (g : Int) (n : Nat) (j : Int) : Ordering :=
  compare (a * powTen g.toNat * powTwo (-j).toNat) (n * powTwo j.toNat * powTen (-g).toNat)

/-- Whether `a * 10 ^ g` reads back as the number `m * 2 ^ q`. The numbers that do lie between the
middles to both neighbours, where a tie is won by an even significand; the neighbour below is nearer
where the significand is the least one of 53 bits. -/
def readsBack (m : Nat) (q : Int) (a : Nat) (g : Int) : Bool :=
  let low := if m = powTwo 52 && Binary64.leastExponent < q then 4 * m - 1 else 4 * m - 2
  let tie := m % 2 == 0
  let below := compareScaled a g low (q - 2)
  let above := compareScaled a g (4 * m + 2) (q - 2)
  (below == .gt || (tie && below == .eq)) && (above == .lt || (tie && above == .eq))

/-- The largest multiple of `10 ^ g` that is not above `m * 2 ^ q`, in units of `10 ^ g`. -/
def floorGrid (m : Nat) (q : Int) (g : Int) : Nat :=
  (m * powTwo q.toNat * powTen (-g).toNat) / (powTwo (-q).toNat * powTen g.toNat)

/-- The multiple of `10 ^ g` that reads back as `m * 2 ^ q` and is nearest to it, if there is one. -/
def onGrid (m : Nat) (q : Int) (g : Int) : Option Nat :=
  let a := floorGrid m q g
  let lower := readsBack m q a g
  let upper := readsBack m q (a + 1) g
  if upper && (!lower || compareScaled (2 * a + 1) g (2 * m) q != .gt) then some (a + 1)
  else if lower then some a
  else none

/-- Tries the grids `10 ^ g`, `10 ^ (g - 1)`, … for the first that holds a decimal which reads
back. -/
def search (m : Nat) (q : Int) : Nat → Int → Option (Nat × Int)
  | 0, _ => none
  | fuel + 1, g =>
    match onGrid m q g with
    | some a => some (a, g)
    | none => search m q fuel (g - 1)

/-- The shortest decimal that reads back as `m * 2 ^ q`, as digits and exponent of ten. The search
starts above the number; 400 grids reach below the least number, and where none is left the exact
decimal expansion stands. -/
def decimal (m : Nat) (q : Int) : Nat × Int :=
  let whole := (natText (m * powTwo q.toNat / powTwo (-q).toNat)).length
  (search m q (whole + 400) whole).getD (m * powTwo q.toNat * Nat.pow 5 (-q).toNat, min q 0)

end Shortest

/-- Digits with a point before the last `places` of them, and a zero before the point where no digit
stands there. -/
def pointed (digits : List Char) (places : Nat) : List Char :=
  let padded := List.replicate (places + 1 - digits.length) '0' ++ digits
  padded.take (padded.length - places) ++ '.' :: padded.drop (padded.length - places)

namespace Binary64

/-- Whether `significand * 2 ^ exponent` is a whole number. -/
def isWhole (significand : Nat) (exponent : Int) : Bool :=
  significand % powTwo (-exponent).toNat == 0

/-- A magnitude without its sign. -/
def magnitudeText (significand : Nat) (exponent : Int) : List Char :=
  if isWhole significand exponent then
    natText (significand * powTwo exponent.toNat / powTwo (-exponent).toNat) ++ ['.', '0']
  else
    let (digits, g) := Shortest.decimal significand exponent
    if 0 ≤ g then natText (digits * powTen g.toNat) else pointed (natText digits) (-g).toNat

/-- The text of a floating-point number. -/
def text : Binary64 → List Char
  | .nan => "NaN".toList
  | .infinite false => "inf".toList
  | .infinite true => "-inf".toList
  | .finite negative m q => (if negative then ['-'] else []) ++ magnitudeText m q

end Binary64

end ScriptCheck
