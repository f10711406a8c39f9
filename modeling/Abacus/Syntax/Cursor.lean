import Abacus.Syntax.Grammar

/-!
A cursor: a place in a token list and the number of levels of nesting open there. It looks one token
ahead, can step back, and reads any part of the grammar from its place.
-/
namespace Abacus

structure Cursor where
  tokens : List Token
  position : Nat
  depth : Nat

namespace Cursor

variable {α : Type}

/-- A cursor in front of the first token, with no level open. -/
def start (tokens : List Token) : Cursor :=
  ⟨tokens, 0, 0⟩

/-- The tokens from the place of the cursor on. -/
def rest (c : Cursor) : List Token :=
  c.tokens.drop c.position

def peek (c : Cursor) : Option Token :=
  c.tokens[c.position]?

/-- The next token, and the cursor behind it. There is no place behind the last token's end. -/
def advance (c : Cursor) : Option Token × Cursor :=
  match c.peek with
  | none => (none, c)
  | some t => (some t, { c with position := c.position + 1 })

/-- One token back. The first place is its own predecessor. -/
def rewind (c : Cursor) : Cursor :=
  { c with position := c.position - 1 }

/-- The line that the end of a token list is reported on: the last token's, one if there is none. -/
def endLine (tokens : List Token) : Nat :=
  match tokens.getLast? with
  | none => 1
  | some t => t.line

/-- The line of the next token, or that of the end of the list. -/
def line (c : Cursor) : Nat :=
  Grammar.lineAt (endLine c.tokens) c.rest

def atEnd (c : Cursor) : Bool :=
  match c.peek with
  | none => true
  | some t => t.kind == .eof

/-- Opens a level for the time of `body`, unless too many are open. The line is that of the token
that opens it. -/
def nested (line : Nat) (body : Cursor → Except ParseError α × Cursor) (c : Cursor) :
    Except ParseError α × Cursor :=
  if nestingLimit ≤ c.depth then (.error (.nestingTooDeep nestingLimit line), c)
  else
    let (result, c') := body { c with depth := c.depth + 1 }
    (result, { c' with depth := c'.depth - 1 })

/-- Reads a part of the grammar at the cursor and moves it to the first token that is not used. -/
def read (p : Production α) (c : Cursor) : Except ParseError α × Cursor :=
  let outcome := p.read (endLine c.tokens) (nestingLimit - c.depth) c.rest
  (outcome.result, { c with position := c.tokens.length - outcome.rest.length })

end Cursor

/-- The program that a token list spells: a block, then at most one `eof`, then nothing. -/
def parse (tokens : List Token) : Except ParseError Block :=
  match Production.block.read (Cursor.endLine tokens) nestingLimit tokens with
  | .error e _ => .error e
  | .ok program [] => .ok program
  | .ok program (t :: rest) =>
    if t.kind = .eof then
      match rest with
      | [] => .ok program
      | extra :: _ => .error (.trailingToken extra.kind extra.line)
    else .error (.trailingToken t.kind t.line)

end Abacus
