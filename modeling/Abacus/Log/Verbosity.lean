/-!
How much a log shows.
-/
namespace Abacus

/-- How much a log shows, from nothing to everything. -/
inductive Verbosity where
  | off
  | error
  | warn
  | info
  | debug
  | trace
deriving DecidableEq, Repr

namespace Verbosity

/-- Verbosities from least to most. -/
def rank : Verbosity → Nat
  | off => 0
  | error => 1
  | warn => 2
  | info => 3
  | debug => 4
  | trace => 5

/-- The verbosity asked for by repeating an option that often. -/
def ofCount : Nat → Verbosity
  | 0 => warn
  | 1 => info
  | 2 => debug
  | _ => trace

def ofRank? : Nat → Option Verbosity
  | 0 => some off
  | 1 => some error
  | 2 => some warn
  | 3 => some info
  | 4 => some debug
  | 5 => some trace
  | _ => none

/-- The verbosity that a word names, in upper or lower case. -/
def ofWord? (word : String) : Option Verbosity :=
  match word.toLower with
  | "off" => some off
  | "error" => some error
  | "warn" => some warn
  | "info" => some info
  | "debug" => some debug
  | "trace" => some trace
  | _ => none

/-- The number that some digits spell. -/
def number? (digits : List Char) : Option Nat :=
  if digits ≠ [] ∧ digits.all Char.isDigit then some (Nat.ofDigitChars 10 digits 0) else none

/-- The number that a text spells, with or without a plus sign. -/
def signedNumber? : List Char → Option Nat
  | '+' :: digits => number? digits
  | digits => number? digits

/-- The verbosity that a text names, by its rank or by its word. -/
def ofText? (text : List Char) : Option Verbosity :=
  match signedNumber? text with
  | some n => ofRank? n
  | none => ofWord? (String.ofList text)

end Verbosity

end Abacus
