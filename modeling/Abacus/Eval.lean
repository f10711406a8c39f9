import Abacus.Context
import Abacus.Event
import Abacus.Syntax

/-!
Evaluation. Operands are evaluated from left to right, all of them, before anything is done with
their values, and whatever has been changed or printed when an error stops a program stays so.
-/
namespace Abacus

/-- What evaluation works on: the context, what has been printed, and what has happened, the latest
first. -/
structure World where
  context : Context
  output : String
  trace : List Event

namespace World

/-- A context before anything has been printed or has happened. -/
def start (context : Context) : World :=
  ⟨context, "", []⟩

def note (w : World) (event : Event) : World :=
  { w with trace := event :: w.trace }

/-- Opens a scope. -/
def push (w : World) : World :=
  let context := w.context.push
  { w with context := context }.note (.pushed context.depth)

/-- Closes the innermost scope. -/
def pop (w : World) : World :=
  let context := w.context.pop
  { w with context := context }.note (.popped context.depth)

end World

/-- Computations on a world that may fail and leave the world as it is then. -/
abbrev Eval := EStateM RuntimeError World

namespace Eval

variable {α : Type}

def lift (result : Except RuntimeError α) : Eval α := fun w =>
  match result with
  | .ok a => .ok a w
  | .error e => .error e w

/-- The value of a variable. -/
def lookup (name : String) (line : Nat) : Eval Value := fun w =>
  match w.context.get? name with
  | some v => .ok v w
  | none => .error (.unknownVariable name line) w

/-- Binds a new variable in the innermost scope. -/
def declare (name : String) (value : Value) (line : Nat) : Eval Unit := fun w =>
  match w.context.declare name value line with
  | .ok context => .ok () ({ w with context := context }.note (.declared name value context.depth))
  | .error e => .error e w

/-- Gives the variable that a name stands for another value. -/
def assign (name : String) (value : Value) (line : Nat) : Eval Unit := fun w =>
  match w.context.assign name value line with
  | .ok context => .ok () { w with context := context }
  | .error e => .error e w

/-- Calls a function by its name. -/
def call (name : String) (arguments : List Value) (line : Nat) : Eval Value := fun w =>
  match w.context.function? name with
  | none => .error (.unknownFunction name line) w
  | some f =>
    let reply := f.call name arguments line
    lift reply.result
      ({ w with output := w.output ++ reply.printed }.note (.calling name arguments.length line))

/-- Evaluates inside a scope of its own, which is closed whatever happens. -/
def inScope (body : Eval α) : Eval α := fun w =>
  match body w.push with
  | .ok a w' => .ok a w'.pop
  | .error e w' => .error e w'.pop

end Eval

namespace Expr

mutual

/-- The value of an expression. -/
def eval : Expr → Eval Value
  | number _ value => pure (.number value)
  | name line x => Eval.lookup x line
  | negate line operand => do
    let v ← operand.eval
    Eval.lift (v.negate line)
  | not _ operand => do
    let v ← operand.eval
    return v.not
  | group inner => inner.eval
  | call line f arguments => do
    let vs ← evalAll arguments
    Eval.call f vs line
  | binary line op left right => do
    let l ← left.eval
    let r ← right.eval
    Eval.lift (op.apply line l r)
  | assign line x value => do
    let v ← value.eval
    Eval.assign x v line
    return v

/-- The values of expressions, from left to right. -/
def evalAll : List Expr → Eval (List Value)
  | [] => pure []
  | e :: es => do
    let v ← e.eval
    let vs ← evalAll es
    return v :: vs

end

end Expr

namespace Statement

mutual

/-- The value of a statement. A block has that of its last statement; an empty one has none. -/
def eval : Statement → Eval (Option Value)
  | declare line x initializer => do
    let v ← initializer.eval
    Eval.declare x v line
    return some v
  | expression value => do
    let v ← value.eval
    return some v
  | block _ body => Eval.inScope (evalFrom none body)

/-- The value of the last of some statements, or the given one if there are none. -/
def evalFrom (last : Option Value) : List Statement → Eval (Option Value)
  | [] => pure last
  | s :: rest => do
    let v ← s.eval
    evalFrom v rest

end

end Statement

namespace Block

/-- Evaluates statements in the innermost scope. -/
def evalProgram (b : Block) : Eval (Option Value) :=
  Statement.evalFrom none b.statements

/-- Evaluates statements in a scope of their own. -/
def evalScoped (b : Block) : Eval (Option Value) :=
  Eval.inScope b.evalProgram

end Block

end Abacus
