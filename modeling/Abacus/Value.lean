import Abacus.Number.Text
import Abacus.RuntimeError
import Abacus.Syntax

/-!
Values and what the operators do with them. The logical operators take any value by its truth, the
others want numbers, except that any two values can be compared for equality.
-/
namespace Abacus

inductive Value where
  | number (value : Float)
  | bool (value : Bool)
deriving DecidableEq

namespace Value

/-- The text of a value. Whole numbers are written without a fraction. Those below `10 ^ 15` need no
case of their own for that: the fewest digits that read back as one of them are all of its digits. -/
def text : Value → String
  | number x => Number.text x
  | bool true => "true"
  | bool false => "false"

/-- Zero and the not-a-number count as false. -/
def truthy : Value → Bool
  | number x => x != 0 && !x.isNaN
  | bool b => b

def toNumber (line : Nat) : Value → Except RuntimeError Float
  | number x => .ok x
  | bool _ => .error (.expectedNumber line)

/-- Equality of values: of numbers as numbers, so that the zeros are equal and the not-a-number
equals nothing; a number never equals a truth value. -/
def equals : Value → Value → Bool
  | number x, number y => x == y
  | bool a, bool b => a == b
  | _, _ => false

/-- Applies a function of two numbers; the left operand is checked first. -/
def onNumbers (line : Nat) (left right : Value) (f : Float → Float → Except RuntimeError Value) :
    Except RuntimeError Value :=
  match left.toNumber line with
  | .error e => .error e
  | .ok x =>
    match right.toNumber line with
    | .error e => .error e
    | .ok y => f x y

def negate (line : Nat) (operand : Value) : Except RuntimeError Value :=
  match operand.toNumber line with
  | .error e => .error e
  | .ok x => .ok (number (-x))

def not (operand : Value) : Value :=
  bool (!operand.truthy)

end Value

open Value in
/-- The value of a binary operator on two values. -/
def BinOp.apply (line : Nat) (left right : Value) : BinOp → Except RuntimeError Value
  | and => .ok (bool (left.truthy && right.truthy))
  | or => .ok (bool (left.truthy || right.truthy))
  | equal => .ok (bool (left.equals right))
  | notEqual => .ok (bool (!left.equals right))
  | less => onNumbers line left right fun x y => .ok (bool (x < y))
  | greater => onNumbers line left right fun x y => .ok (bool (y < x))
  | add => onNumbers line left right fun x y => .ok (number (x + y))
  | sub => onNumbers line left right fun x y => .ok (number (x - y))
  | mul => onNumbers line left right fun x y => .ok (number (x * y))
  | div => onNumbers line left right fun x y =>
    if y == 0 then .error (.divisionByZero line) else .ok (number (x / y))

end Abacus
