import Abacus.Eval
import Abacus.Syntax.Cursor
import Abacus.Token.Lexer

/-!
Sessions: running source texts one after the other in one context. A text that fails keeps what it
has done before it failed.
-/
namespace Abacus

/-- Why a source text does not run to its end. -/
inductive Error where
  | lex (cause : LexError)
  | parse (cause : ParseError)
  | runtime (cause : RuntimeError)
deriving DecidableEq

namespace Error

def line : Error → Nat
  | lex cause => cause.line
  | parse cause => cause.line
  | runtime cause => cause.line

def message : Error → String
  | lex cause => cause.message
  | parse cause => cause.message
  | runtime cause => cause.message

end Error

/-- The program that a source text spells, and the events of reading it, the latest first. -/
def Block.reading (source : String) : Except Error Block × List Event :=
  match Token.tokenize source with
  | .error e => (.error (.lex e), [])
  | .ok tokens =>
    let tokenized := .tokenized tokens.length
    match parse tokens with
    | .error e => (.error (.parse e), [tokenized])
    | .ok program => (.ok program, [.parsed program.statements.length, tokenized])

/-- The program that a source text spells. -/
def Block.ofSource (source : String) : Except Error Block :=
  (reading source).1

/-- What a run ends with: a value or an error, and the world it leaves. -/
structure Run (α : Type) where
  result : Except Error α
  world : World

namespace Run

variable {α : Type}

/-- The events of a run in the order of time. -/
def events (r : Run α) : List Event :=
  r.world.trace.reverse

/-- Runs a computation in a context. -/
def ofEval (c : Context) (body : Eval α) : Run α :=
  match body (.start c) with
  | .ok a w => ⟨.ok a, w⟩
  | .error e w => ⟨.error (.runtime e), w⟩

end Run

structure Session where
  context : Context

namespace Session

/-- A session with the built-in functions. -/
def new : Session :=
  ⟨.withBuiltins⟩

/-- A session without any function. -/
def bare : Session :=
  ⟨.empty⟩

/-- Runs a source text in the root scope. -/
def run (s : Session) (source : String) : Run (Option Value) :=
  let (program, events) := Block.reading source
  let w : World := ⟨s.context, "", events⟩
  match program with
  | .error e => ⟨.error e, w⟩
  | .ok program =>
    match program.evalProgram w with
    | .ok v w => ⟨.ok v, w⟩
    | .error e w => ⟨.error (.runtime e), w⟩

/-- The session after a run. -/
def after {α : Type} (r : Run α) : Session :=
  ⟨r.world.context⟩

/-- Calls a function of a session from outside. -/
def call (s : Session) (name : String) (arguments : List Value) (line : Nat) : Run Value :=
  .ofEval s.context (Eval.call name arguments line)

/-- Defines a function of any number of arguments. -/
def register (s : Session) (name : String) (body : List Value → Nat → Reply) : Session :=
  ⟨s.context.register name body⟩

end Session

/-- Runs a source text in a session of its own. -/
def runSource (source : String) : Run (Option Value) :=
  Session.new.run source

end Abacus
