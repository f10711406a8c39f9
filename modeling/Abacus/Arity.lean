/-!
How many arguments a function takes.
-/
namespace Abacus

inductive Arity where
  | exactly (count : Nat)
  | atLeast (count : Nat)
deriving DecidableEq, Repr

namespace Arity

def accepts : Arity → Nat → Bool
  | exactly count, n => n == count
  | atLeast count, n => count ≤ n

def text : Arity → String
  | exactly count => toString count
  | atLeast count => "at least " ++ toString count

end Arity

end Abacus
