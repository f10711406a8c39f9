/-!
Patterns for the values of fields, which are regular expressions or numbers. A regular expression is
taken if its groups and classes are closed, no escape stands at its end and every repetition has
something to repeat. A value ends before a closing brace, so it holds no repetition with a count.
-/
namespace Abacus.Log

/-- How far the reading of a regular expression has come. -/
structure Pattern where
  /-- The number of groups that are open. -/
  groups : Nat
  /-- The number of character classes that are open, one inside the other. -/
  classes : Nat
  /-- Whether nothing stands in the innermost class yet, so that a closing bracket is plain. -/
  fresh : Bool
  /-- Whether the last character is an escape. -/
  escaped : Bool
  /-- Whether there is something to repeat. -/
  operand : Bool

namespace Pattern

def start : Pattern :=
  ⟨0, 0, false, false, false⟩

/-- Whether a regular expression may end. -/
def isClosed (p : Pattern) : Bool :=
  p.groups == 0 && p.classes == 0 && !p.escaped

/-- Reads a character inside a class. -/
def stepInClass (p : Pattern) (c : Char) : Pattern :=
  if c = '[' then { p with classes := p.classes + 1, fresh := true }
  else if c = ']' ∧ !p.fresh then { p with classes := p.classes - 1, operand := true }
  else { p with fresh := p.fresh && c == '^' }

/-- Reads a character outside of classes. -/
def stepOutside (p : Pattern) (c : Char) : Option Pattern :=
  match c with
  | '[' => some { p with classes := 1, fresh := true }
  | '(' => some { p with groups := p.groups + 1, operand := false }
  | ')' => if p.groups = 0 then none else some { p with groups := p.groups - 1, operand := true }
  | '|' => some { p with operand := false }
  | '*' | '+' | '?' => if p.operand then some p else none
  | '\x7b' => none
  | _ => some { p with operand := true }

/-- Reads a character. -/
def step (p : Pattern) (c : Char) : Option Pattern :=
  if p.escaped then some { p with escaped := false, fresh := false, operand := true }
  else if c = '\\' then some { p with escaped := true }
  else if 0 < p.classes then some (p.stepInClass c)
  else p.stepOutside c

/-- Whether a regular expression can go on like this to its end. What a group starts with after `(?`
says how it is read. -/
def accepts (p : Pattern) : List Char → Bool
  | [] => p.isClosed
  | '(' :: '?' :: rest =>
    match p.step '(' with
    | some q => accepts q rest
    | none => false
  | c :: rest =>
    match p.step c with
    | some q => accepts q rest
    | none => false

/-- Whether a text is a number without a sign. -/
def isNumber (text : List Char) : Bool :=
  let digits := text.filter (· != '.')
  !digits.isEmpty && digits.all Char.isDigit && text.length ≤ digits.length + 1

/-- Whether a text is a value of a field. A number with a plus sign is one, though no regular
expression starts so. -/
def isValue : List Char → Bool
  | '+' :: rest => isNumber rest
  | text => start.accepts text

end Pattern

end Abacus.Log
