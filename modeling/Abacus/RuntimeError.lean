import Abacus.Arity

/-!
Why a program cannot be evaluated to its end. Every error carries the line of the node at fault.
-/
namespace Abacus

inductive RuntimeError where
  | unknownVariable (name : String) (line : Nat)
  | unknownFunction (name : String) (line : Nat)
  | alreadyDeclared (name : String) (line : Nat)
  | expectedNumber (line : Nat)
  | divisionByZero (line : Nat)
  | argumentCount (name : String) (expected : Arity) (found line : Nat)
deriving DecidableEq, Repr

namespace RuntimeError

def line : RuntimeError → Nat
  | unknownVariable _ line | unknownFunction _ line | alreadyDeclared _ line
  | expectedNumber line | divisionByZero line | argumentCount _ _ _ line => line

/-- What is wrong, without the place. -/
def reason : RuntimeError → String
  | unknownVariable name _ => "Unknown variable '" ++ name ++ "'."
  | unknownFunction name _ => "Unknown function '" ++ name ++ "'."
  | alreadyDeclared name _ => "Variable '" ++ name ++ "' is already declared in this scope."
  | expectedNumber _ => "Expected number."
  | divisionByZero _ => "Division by zero."
  | argumentCount name expected found _ =>
    "Function '" ++ name ++ "' expects " ++ expected.text ++ s!" argument(s), found {found}."

def message (e : RuntimeError) : String :=
  s!"Error on line {e.line}: " ++ e.reason

end RuntimeError

end Abacus
