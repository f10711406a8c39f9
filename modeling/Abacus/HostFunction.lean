import Abacus.Value

/-!
Functions that a host offers to programs. A body sees its arguments and the line of the call, may
print, and answers with a value or an error; it cannot see or change any variable.
-/
namespace Abacus

/-- What a function body does when it is called. -/
structure Reply where
  printed : String
  result : Except RuntimeError Value

namespace Reply

/-- A reply without printing. -/
def silent (result : Except RuntimeError Value) : Reply :=
  ⟨"", result⟩

end Reply

/-- A function of a host. What its body prints and answers depends on the arguments and the line alone:
a body keeps nothing from one call to the next. -/
structure HostFunction where
  arity : Arity
  body : List Value → Nat → Reply

namespace HostFunction

/-- A function of any number of arguments. -/
def variadic (body : List Value → Nat → Reply) : HostFunction :=
  ⟨.atLeast 0, body⟩

/-- Calls a function under the given name, if it takes that many arguments. -/
def call (f : HostFunction) (name : String) (arguments : List Value) (line : Nat) : Reply :=
  if f.arity.accepts arguments.length then f.body arguments line
  else .silent (.error (.argumentCount name f.arity arguments.length line))

end HostFunction

end Abacus
