import Abacus.Bindings
import Abacus.Builtin

/-!
What the names of a program stand for: a stack of scopes for variables, of which the innermost is
always there, and one table of functions that all scopes share. Variables and functions have separate
names.
-/
namespace Abacus

/-- The variables of one scope. -/
abbrev Scope := Bindings Value

structure Context where
  functions : Bindings HostFunction
  /-- The innermost scope. -/
  top : Scope
  /-- The scopes around it, from the inside out. -/
  outer : List Scope

namespace Context

/-- One scope, and nothing bound. -/
def empty : Context :=
  ⟨.empty, .empty, []⟩

/-- All scopes, from the inside out. -/
def scopes (c : Context) : List Scope :=
  c.top :: c.outer

def depth (c : Context) : Nat :=
  c.scopes.length

/-- Opens a scope. -/
def push (c : Context) : Context :=
  { c with top := .empty, outer := c.top :: c.outer }

/-- Closes the innermost scope. The last scope stays open. -/
def pop (c : Context) : Context :=
  match c.outer with
  | [] => c
  | scope :: outer => { c with top := scope, outer := outer }

/-- The value of a variable: that of the innermost scope that has it. -/
def get? (c : Context) (name : String) : Option Value :=
  c.scopes.findSome? (·.get? name)

/-- Binds a new variable in the innermost scope. -/
def declare (c : Context) (name : String) (value : Value) (line : Nat) :
    Except RuntimeError Context :=
  if c.top.contains name then .error (.alreadyDeclared name line)
  else .ok { c with top := c.top.insert name value }

/-- Gives a variable another value in the innermost scope that has it. -/
def assignIn (name : String) (value : Value) : List Scope → Option (List Scope)
  | [] => none
  | scope :: rest =>
    if scope.contains name then some (scope.insert name value :: rest)
    else (assignIn name value rest).map (scope :: ·)

/-- Gives the variable that a name stands for another value. -/
def assign (c : Context) (name : String) (value : Value) (line : Nat) :
    Except RuntimeError Context :=
  if c.top.contains name then .ok { c with top := c.top.insert name value }
  else
    match assignIn name value c.outer with
    | none => .error (.unknownVariable name line)
    | some outer => .ok { c with outer := outer }

def function? (c : Context) (name : String) : Option HostFunction :=
  c.functions.get? name

def define (c : Context) (name : String) (f : HostFunction) : Context :=
  { c with functions := c.functions.insert name f }

/-- Defines a function of any number of arguments. -/
def register (c : Context) (name : String) (body : List Value → Nat → Reply) : Context :=
  c.define name (.variadic body)

/-- Defines the built-in functions. -/
def install (c : Context) : Context :=
  Builtin.table.foldl (fun c entry => c.define entry.1 entry.2) c

/-- One scope, and the built-in functions. -/
def withBuiltins : Context :=
  empty.install

end Context

end Abacus
