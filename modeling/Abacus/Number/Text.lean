import Abacus.Number.Decimal

/-!
The text of a number: the fewest digits that read back as the same number, never with an exponent.
A finite number is a decimal, since two divides ten. The search drops as many trailing digits of that
decimal as it can and ends, at the latest, with the decimal itself.
-/
namespace Abacus.Number

/-- The finite number with the given pattern as a decimal: a unit of `2 ^ -n` is `5 ^ n` units of
`10 ^ -n`. One of the two powers is one. -/
def exact (pattern : Nat) : Decimal :=
  let scale := Magnitude.scale pattern
  ⟨Magnitude.significand pattern * Nat.pow 2 (scale - 1074) * Nat.pow 5 (1074 - scale),
    1074 - scale⟩

/-- The multiple of `10 ^ k` next to the coefficient of a decimal that, over the same power of ten,
reads as the given pattern: the nearer one if both neighbours do, the upper one if they are equally
near. -/
def dropDigits (pattern : Nat) (d : Decimal) (k : Nat) : Option Decimal :=
  let step := Nat.pow 10 k
  let below : Decimal := ⟨d.coefficient / step * step, d.places⟩
  let above : Decimal := ⟨below.coefficient + step, d.places⟩
  if below.pattern = pattern then
    if above.coefficient - d.coefficient ≤ d.coefficient - below.coefficient ∧
        above.pattern = pattern then
      some above
    else some below
  else if above.pattern = pattern then some above
  else none

/-- The decimal left after dropping as many digits as possible, `k` at most: `drop` tells what is left
after dropping a number of them. -/
def shortestFrom (drop : Nat → Option Decimal) (d : Decimal) : Nat → Decimal
  | 0 => d
  | k + 1 =>
    match drop (k + 1) with
    | some shorter => shorter
    | none => shortestFrom drop d k

/-- The decimal with the fewest digits that reads as the finite number of the given pattern. -/
def shortest (pattern : Nat) : Decimal :=
  let d := exact pattern
  let digits := (Nat.toDigits 10 d.coefficient).length
  (shortestFrom (dropDigits pattern d) d (digits - 1)).trim

/-- The text of a number without its sign. -/
def magnitudeText (pattern : Nat) : String :=
  if pattern < Magnitude.infinity then (shortest pattern).text else "inf"

/-- The highest bit of a number, which is set in the negative ones. -/
def signBit : Nat := Nat.pow 2 63

/-- The text of a number. Zero keeps its sign. -/
def text (x : Float) : String :=
  let bits := x.toBits.toNat
  if x.isNaN then "NaN"
  else if bits < signBit then magnitudeText bits
  else "-" ++ magnitudeText (bits - signBit)

end Abacus.Number
