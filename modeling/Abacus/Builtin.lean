import Abacus.HostFunction

/-!
The built-in functions. Called directly they look at the arguments they need and ignore the rest; a
missing argument is no number.
-/
namespace Abacus.Builtin

/-- The argument at an index, as a number. -/
def number (arguments : List Value) (index line : Nat) : Except RuntimeError Float :=
  match arguments[index]? with
  | none => .error (.expectedNumber line)
  | some v => v.toNumber line

/-- A function of the first argument. -/
def onOne (f : Float → Float) (arguments : List Value) (line : Nat) : Reply :=
  .silent (do
    let x ← number arguments 0 line
    return .number (f x))

/-- A function of the first two arguments. -/
def onTwo (f : Float → Float → Float) (arguments : List Value) (line : Nat) : Reply :=
  .silent (do
    let x ← number arguments 0 line
    let y ← number arguments 1 line
    return .number (f x y))

/-- The smaller of two numbers; the not-a-number gives way to the other. -/
def smaller (x y : Float) : Float :=
  if x.isNaN then y else if y.isNaN then x else if y < x then y else x

/-- The larger of two numbers; the not-a-number gives way to the other. -/
def larger (x y : Float) : Float :=
  if x.isNaN then y else if y.isNaN then x else if x < y then y else x

/-- Prints its arguments on a line, one space apart, and answers with the last of them, or zero. -/
def print (arguments : List Value) (_line : Nat) : Reply :=
  ⟨" ".intercalate (arguments.map Value.text) ++ "\n",
    .ok (arguments.getLast?.getD (.number 0))⟩

def sqrt : List Value → Nat → Reply := onOne Float.sqrt

def pow : List Value → Nat → Reply := onTwo Float.pow

def abs : List Value → Nat → Reply := onOne Float.abs

def min : List Value → Nat → Reply := onTwo smaller

def max : List Value → Nat → Reply := onTwo larger

/-- The built-in functions by name. -/
def table : List (String × HostFunction) :=
  [("print", ⟨.atLeast 0, print⟩),
   ("sqrt", ⟨.exactly 1, sqrt⟩),
   ("pow", ⟨.exactly 2, pow⟩),
   ("abs", ⟨.exactly 1, abs⟩),
   ("min", ⟨.exactly 2, min⟩),
   ("max", ⟨.exactly 2, max⟩)]

end Abacus.Builtin
