import Abacus.Value

/-!
Events: the steps of a run that a log may show.
-/
namespace Abacus

inductive Event where
  /-- A source text has been cut into that many tokens. -/
  | tokenized (count : Nat)
  /-- A token list has been read as that many statements. -/
  | parsed (statements : Nat)
  | declared (name : String) (value : Value) (depth : Nat)
  /-- A scope has been opened; the depth counts it. -/
  | pushed (depth : Nat)
  /-- A scope has been closed; the depth does not count it. -/
  | popped (depth : Nat)
  | calling (name : String) (arguments line : Nat)
deriving DecidableEq

end Abacus
