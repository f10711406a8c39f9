import Abacus.Number.Magnitude

/-!
Decimals without an exponent: a coefficient and the number of its digits that stand behind the
point. They are what number literals spell and what numbers are written as.
-/
namespace Abacus

/-- The decimal `coefficient / 10 ^ places`. -/
structure Decimal where
  coefficient : Nat
  places : Nat
deriving DecidableEq, Repr

namespace Decimal

/-- The decimal spelled by the digits before and behind a point. -/
def ofDigits (whole fraction : List Char) : Decimal :=
  ⟨Nat.ofDigitChars 10 (whole ++ fraction) 0, fraction.length⟩

/-- The pattern of the binary64 number nearest to a decimal. -/
def pattern (d : Decimal) : Nat :=
  Magnitude.nearest d.coefficient (Nat.pow 10 d.places)

/-- The binary64 number nearest to a decimal. -/
def toFloat (d : Decimal) : Float :=
  Float.ofBits (UInt64.ofNat d.pattern)

/-- The decimal with the given coefficient and places, without zeros at the end of its fraction. -/
def trimmed (coefficient : Nat) : Nat → Decimal
  | 0 => ⟨coefficient, 0⟩
  | places + 1 =>
    if coefficient % 10 = 0 then trimmed (coefficient / 10) places
    else ⟨coefficient, places + 1⟩

/-- The same decimal without zeros at the end of its fraction. -/
def trim (d : Decimal) : Decimal :=
  trimmed d.coefficient d.places

/-- The digits of a fraction below one, filled up with zeros from the left. -/
def fractionDigits (fraction places : Nat) : List Char :=
  let digits := Nat.toDigits 10 fraction
  List.replicate (places - digits.length) '0' ++ digits

/-- The digits of a decimal, with a point if any stand behind it. -/
def text (d : Decimal) : String :=
  let one := Nat.pow 10 d.places
  let whole := Nat.toDigits 10 (d.coefficient / one)
  if d.places = 0 then String.ofList whole
  else String.ofList (whole ++ '.' :: fractionDigits (d.coefficient % one) d.places)

end Decimal

end Abacus
