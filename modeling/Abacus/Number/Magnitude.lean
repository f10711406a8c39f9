/-!
Finite non-negative binary64 numbers, seen through their bit patterns. A pattern read as a natural
number counts the numbers below it, and each of these numbers is a whole number of units of
`2 ^ -1074`, so rounding to the nearest of them is a matter of natural numbers alone.
-/
namespace Abacus.Magnitude

/-- The leading bit of a significand, `2 ^ 52`. A pattern keeps its exponent above it. -/
def leadingOne : Nat := Nat.pow 2 52

/-- The units of `2 ^ -1074` in the number one. -/
def unitsInOne : Nat := Nat.pow 2 1074

/-- The pattern of infinity. The smaller patterns are those of the finite numbers. -/
def infinity : Nat := 2047 * leadingOne

/-- The significand of the finite number with the given pattern. The small numbers have no leading
one. -/
def significand (pattern : Nat) : Nat :=
  if pattern < leadingOne then pattern else leadingOne + pattern % leadingOne

/-- The number of doublings from a unit of `2 ^ -1074` to the unit that the significand counts. -/
def scale (pattern : Nat) : Nat :=
  pattern / leadingOne - 1

/-- The units of `2 ^ -1074` in the finite number with the given pattern. -/
def units (pattern : Nat) : Nat :=
  significand pattern * Nat.pow 2 (scale pattern)

/-- The whole number nearest to `num / den`; a half goes to the even neighbour. -/
def roundHalfEven (num den : Nat) : Nat :=
  if 2 * (num % den) < den then num / den
  else if den < 2 * (num % den) then num / den + 1
  else num / den + num / den % 2

/-- The pattern of the number nearest to `num / den`; a half goes to the even pattern, and what is
too large becomes infinity. The shift drops the units that a significand of 53 bits cannot hold; a
significand rounded up to `2 ^ 53` carries into the exponent, as it should. -/
def nearest (num den : Nat) : Nat :=
  let shift := (num * unitsInOne / den).log2 - 52
  min (roundHalfEven (num * unitsInOne) (den * Nat.pow 2 shift) + shift * leadingOne) infinity

end Abacus.Magnitude
