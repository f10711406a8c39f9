import Abacus.Proofs.Syntax.LookAhead
import Abacus.Syntax.Cursor

/-!
Reading as moves of a cursor. The rules are written once more with nothing but what a cursor does: look
at the next token, go on, step back, open a level and close it, and go round a loop. All rules share the one
cursor, and nothing in their form says where a rule leaves it, or with how many levels open.

How often a loop may go round and how many rules may be under way inside each other is limited from outside,
and reading breaks off at a limit. What is said of moves is therefore said of all limits that are large
enough: in front of given tokens they come to an outcome, and the cursor to the tokens that are left.
-/
namespace Abacus

/-- Why moves come to no end of their own. -/
inductive Fault where
  /-- A level is closed and none is open. -/
  | underflow
  /-- A loop goes round too often, or too many rules are under way. -/
  | unfinished
deriving DecidableEq

/-- Moves of a cursor, which end with a result or a parse error. -/
abbrev Moves :=
  ExceptT ParseError (StateT Cursor (Except Fault))

namespace Moves

variable {α β σ : Type}

def peek : Moves (Option Token) :=
  return (← get).peek

def advance : Moves (Option Token) :=
  modifyGet Cursor.advance

def rewind : Moves Unit :=
  modify Cursor.rewind

def line : Moves Nat :=
  return (← get).line

def atEnd : Moves Bool :=
  return (← get).atEnd

/-- Moves inside a further level, unless too many are open. The level is closed again, whether they end with
a result or with an error. -/
def nested (line : Nat) (body : Moves α) : Moves α := fun c => do
  if nestingLimit ≤ c.depth then return (.error (.nestingTooDeep nestingLimit line), c)
  else
    let (result, c') ← body.run.run { c with depth := c.depth + 1 }
    if c'.depth = 0 then throw .underflow
    else return (result, { c' with depth := c'.depth - 1 })

/-- Goes round until there is a result, at most the given number of times. -/
def loop (turn : σ → Moves (σ ⊕ α)) : Nat → σ → Moves α
  | 0, _ => throwThe Fault .unfinished
  | turns + 1, s => do
    match ← turn s with
    | .inl s' => loop turn turns s'
    | .inr a => return a

/-- One operator of a level and its right operand. -/
def chainTurn (level : Level) (operand : Moves Expr) (left : Expr) : Moves (Expr ⊕ Expr) := do
  match ← peek with
  | none => return .inr left
  | some t =>
    match t.kind.binOp? with
    | none => return .inr left
    | some op =>
      if op.level = level then
        let _ ← advance
        let right ← operand
        return .inl (.binary t.line op left right)
      else return .inr left

def chain (turns : Nat) (level : Level) (operand : Moves Expr) : Moves Expr := do
  let left ← operand
  loop (chainTurn level operand) turns left

/-- One argument, and the comma or the parenthesis behind it. -/
def argumentsTurn (argument : Moves Expr) (as : List Expr) :
    Moves (List Expr ⊕ List Expr) := do
  let a ← argument
  match ← peek with
  | none => throw (.unclosedParen .eof (← line))
  | some t =>
    if t.kind = .comma then
      let _ ← advance
      return .inl (as ++ [a])
    else if t.kind = .rightParen then
      let _ ← advance
      return .inr (as ++ [a])
    else throw (.unclosedParen t.kind t.line)

def arguments (turns : Nat) (argument : Moves Expr) : Moves (List Expr) := do
  if (← peek).any (·.kind = .rightParen) then
    let _ ← advance
    return []
  else loop (argumentsTurn argument) turns []

def blockTurn (statement : Moves Statement) (body : List Statement) :
    Moves (List Statement ⊕ List Statement) := do
  if ← atEnd then return .inr body
  else if (← peek).any (·.kind = .rightBrace) then return .inr body
  else
    let s ← statement
    return .inl (body ++ [s])

def block (turns : Nat) (statement : Moves Statement) : Moves Block := do
  let line ← line
  let body ← loop (blockTurn statement) turns []
  return ⟨line, body⟩

/-- One statement between braces, or the closing brace. -/
def bracedTurn (statement : Moves Statement) (body : List Statement) :
    Moves (List Statement ⊕ List Statement) := do
  match ← peek with
  | none => throw (.unclosedBrace .eof (← line))
  | some t =>
    if t.kind = .rightBrace then
      let _ ← advance
      return .inr body
    else if t.kind = .eof then throw (.unclosedBrace .eof t.line)
    else
      let s ← statement
      return .inl (body ++ [s])

def braced (turns : Nat) (statement : Moves Statement) : Moves (List Statement) :=
  loop (bracedTurn statement) turns []

/-- The rules that are read inside a level. -/
structure Rules where
  factor : Moves Expr
  assignment : Moves Expr
  statement : Moves Statement

def group (inner : Rules) : Moves Expr := do
  let e ← inner.assignment
  match ← peek with
  | none => throw (.unclosedParen .eof (← line))
  | some t =>
    if t.kind = .rightParen then
      let _ ← advance
      return .group e
    else throw (.unclosedParen t.kind t.line)

def nameOrCall (turns : Nat) (inner : Rules) (line : Nat) (name : String) : Moves Expr := do
  if (← peek).any (·.kind = .leftParen) then
    let _ ← advance
    let as ← nested line (arguments turns inner.assignment)
    return .call line name as
  else return .name line name

def factor (turns : Nat) (inner : Rules) : Moves Expr := do
  match ← peek with
  | none => throw (.unexpectedEnd (← line))
  | some t =>
    match t.kind with
    | .minus =>
      let _ ← advance
      let e ← nested t.line inner.factor
      return .negate t.line e
    | .bang =>
      let _ ← advance
      let e ← nested t.line inner.factor
      return .not t.line e
    | .integer value | .float value =>
      let _ ← advance
      return .number t.line value
    | .identifier name =>
      let _ ← advance
      nameOrCall turns inner t.line name
    | .leftParen =>
      let _ ← advance
      nested t.line (group inner)
    | .keyword .cond => throw (.reservedKeyword .cond t.line)
    | .eof => throw (.unexpectedEnd t.line)
    | kind => throw (.unexpectedToken kind t.line)

def multiplicative (turns : Nat) (factor : Moves Expr) : Moves Expr :=
  chain turns .multiplicative factor

def additive (turns : Nat) (factor : Moves Expr) : Moves Expr :=
  chain turns .additive (multiplicative turns factor)

def comparison (turns : Nat) (factor : Moves Expr) : Moves Expr :=
  chain turns .comparison (additive turns factor)

def logical (turns : Nat) (factor : Moves Expr) : Moves Expr :=
  chain turns .logical (comparison turns factor)

/-- Goes past a name to see whether `=` comes next, and back if it does not. -/
def assignment (inner : Rules) (logical : Moves Expr) : Moves Expr := do
  match ← peek with
  | some ⟨.identifier name, line⟩ =>
    let _ ← advance
    if (← peek).any (·.kind = .assign) then
      let _ ← advance
      let e ← nested line inner.assignment
      return .assign line name e
    else
      rewind
      logical
  | _ => logical

/-- The name that is declared by the `var` on a line. -/
def declaredName (line : Nat) : Moves String := do
  match ← peek with
  | none => throw (.expectedIdentifier .eof line)
  | some t =>
    match t.kind with
    | .identifier name =>
      let _ ← advance
      return name
    | kind => throw (.expectedIdentifier kind line)

def declaration (assignment : Moves Expr) (line : Nat) : Moves Statement := do
  let name ← declaredName line
  match ← peek with
  | none => throw (.unexpectedEnd line)
  | some t =>
    if t.kind = .assign then
      let _ ← advance
      let e ← assignment
      return .declare line name e
    else throw (.expectedAssign name t.kind line)

def statement (turns : Nat) (inner : Rules) (assignment : Moves Expr) : Moves Statement := do
  match ← peek with
  | none => return .expression (← assignment)
  | some t =>
    match t.kind with
    | .keyword .var =>
      let _ ← advance
      declaration assignment t.line
    | .leftBrace =>
      let _ ← advance
      let body ← nested t.line (braced turns inner.statement)
      return .block t.line body
    | _ => return .expression (← assignment)

namespace Rules

/-- The rules over those that are read inside a level. -/
def next (turns : Nat) (inner : Rules) : Rules :=
  let factor := Moves.factor turns inner
  let assignment := Moves.assignment inner (logical turns factor)
  ⟨factor, assignment, Moves.statement turns inner assignment⟩

/-- The rules, if at most so many are under way inside each other. -/
def within (turns : Nat) : Nat → Rules
  | 0 =>
    let unfinished {α : Type} : Moves α := throwThe Fault .unfinished
    ⟨unfinished, unfinished, unfinished⟩
  | calls + 1 => next turns (within turns calls)

end Rules

end Moves

/-- The moves by which a part of the grammar is read. A loop goes round at most `turns` times, and at most
`calls` rules are under way inside each other. -/
def Production.moves (turns calls : Nat) {α : Type} (p : Production α) : Moves α :=
  let rules := Moves.Rules.within turns calls
  match p with
  | block => Moves.block turns rules.statement
  | braced line => do
    let body ← Moves.braced turns rules.statement
    return ⟨line, body⟩
  | statement => rules.statement
  | assignment => rules.assignment
  | logical => Moves.logical turns rules.factor
  | comparison => Moves.comparison turns rules.factor
  | additive => Moves.additive turns rules.factor
  | multiplicative => Moves.multiplicative turns rules.factor
  | factor => rules.factor

namespace Cursor

variable {tokens ts : List Token} {t : Token} {depth : Nat}

/-- The cursor in front of the last tokens of a list. -/
def before (tokens : List Token) (depth : Nat) (ts : List Token) : Cursor :=
  ⟨tokens, tokens.length - ts.length, depth⟩

theorem rest_before (h : ts <:+ tokens) : (before tokens depth ts).rest = ts :=
  List.suffix_iff_eq_drop.1 h |>.symm

theorem peek_before (h : ts <:+ tokens) : (before tokens depth ts).peek = ts.head? := by
  rw [peek, ← List.head?_drop]
  exact congrArg List.head? (rest_before h)

theorem advance_before (h : t :: ts <:+ tokens) :
    (before tokens depth (t :: ts)).advance = (some t, before tokens depth ts) := by
  have hle := h.length_le
  have hposition : tokens.length - (t :: ts).length + 1 = tokens.length - ts.length := by
    rw [List.length_cons] at hle ⊢
    omega
  rw [advance, peek_before h]
  exact congrArg (fun position => (some t, Cursor.mk tokens position depth)) hposition

theorem rewind_before (ts : List Token) (t : Token) :
    (before tokens depth ts).rewind = before tokens depth (t :: ts) := by
  simp only [rewind, before, List.length_cons, Cursor.mk.injEq, true_and, and_true]
  omega

theorem atEnd_before (h : ts <:+ tokens) :
    (before tokens depth ts).atEnd = ts.head?.all (·.kind = .eof) := by
  rw [atEnd, peek_before h]
  cases ts.head? <;> rfl

theorem line_before (h : ts <:+ tokens) :
    (before tokens depth ts).line = Grammar.lineAt (endLine tokens) ts :=
  congrArg (Grammar.lineAt (endLine tokens)) (rest_before h)

section Nested

variable {α : Type} {c : Cursor} {line : Nat} {read : Cursor → Except ParseError α × Cursor}

theorem nested_of_le (h : nestingLimit ≤ c.depth) :
    c.nested line read = (.error (.nestingTooDeep nestingLimit line), c) :=
  if_pos h

theorem nested_of_lt (h : c.depth < nestingLimit) :
    let inside := read { c with depth := c.depth + 1 }
    c.nested line read = (inside.1, { inside.2 with depth := inside.2.depth - 1 }) :=
  if_neg (Nat.not_le.2 h)

end Nested

end Cursor

namespace Moves

section Runs

variable {α β : Type} (c : Cursor)

theorem run_peek_bind (next : Option Token → Moves α) :
    (peek >>= next).run.run c = (next c.peek).run.run c :=
  rfl

theorem run_advance_bind (next : Option Token → Moves α) :
    (advance >>= next).run.run c = (next c.advance.1).run.run c.advance.2 :=
  rfl

theorem run_rewind_bind (next : Unit → Moves α) :
    (rewind >>= next).run.run c = (next ()).run.run c.rewind :=
  rfl

theorem run_line_bind (next : Nat → Moves α) :
    (line >>= next).run.run c = (next c.line).run.run c :=
  rfl

theorem run_atEnd_bind (next : Bool → Moves α) :
    (atEnd >>= next).run.run c = (next c.atEnd).run.run c :=
  rfl

theorem run_bind (m : Moves α) (next : α → Moves β) :
    (m >>= next).run.run c = (m.run.run c).bind fun (result, c') =>
      match result with
      | .ok a => (next a).run.run c'
      | .error e => .ok (.error e, c') := by
  change (m.run.run c).bind (fun p => (ExceptT.bindCont next p.1).run p.2) = _
  congr 1
  funext ⟨result, c'⟩
  cases result <;> rfl

/-- Opening a level and closing it again is what it is for a cursor alone, if the moves inside come to
what is done with the cursor there and leave the level open. -/
theorem run_nested {c : Cursor} (line : Nat) {body : Moves α}
    {read : Cursor → Except ParseError α × Cursor}
    (hbody : c.depth < nestingLimit → let inside : Cursor := { c with depth := c.depth + 1 }
      body.run.run inside = .ok (read inside) ∧ 0 < (read inside).2.depth) :
    (nested line body).run.run c = .ok (c.nested line read) := by
  by_cases h : nestingLimit ≤ c.depth
  · rw [Cursor.nested_of_le h]
    exact if_pos h
  · have hopen : (nested line body).run.run c = (body.run.run { c with depth := c.depth + 1 }).bind
        fun (result, c') => if c'.depth = 0 then .error .underflow
          else .ok (result, { c' with depth := c'.depth - 1 }) :=
      if_neg h
    obtain ⟨hrun, hdepth⟩ := hbody (Nat.not_le.1 h)
    rw [hopen, hrun, Cursor.nested_of_lt (Nat.not_le.1 h)]
    exact if_neg (Nat.ne_of_gt hdepth)

end Runs

/-- In front of the tokens `ts` the moves come to an outcome. The cursor ends in front of the tokens that
are left, and as many levels are open as before. -/
structure Makes (tokens : List Token) (depth : Nat) (m : Moves α) (ts : List Token)
    (o : Outcome α) : Prop where
  rest_suffix : o.rest <:+ ts
  run_eq : m.run.run (Cursor.before tokens depth ts) =
    .ok (o.result, Cursor.before tokens depth o.rest)

/-- The last tokens of a list, for which so many turns are enough. -/
structure Ahead (tokens : List Token) (turns : Nat) (ts : List Token) : Prop where
  suffix : ts <:+ tokens
  length_lt : ts.length < turns

theorem Ahead.of_suffix {tokens ts mid : List Token} {turns : Nat} (h : Ahead tokens turns ts)
    (hmid : mid <:+ ts) : Ahead tokens turns mid :=
  ⟨hmid.trans h.suffix, Nat.lt_of_le_of_lt hmid.length_le h.length_lt⟩

theorem Ahead.tail {tokens ts : List Token} {t : Token} {turns : Nat}
    (h : Ahead tokens turns (t :: ts)) : Ahead tokens turns ts :=
  h.of_suffix (List.suffix_cons t ts)

/-- The moves come to what a rule makes of the tokens, wherever they are made. -/
def Follows (tokens : List Token) (depth turns : Nat) (m : Moves α) (f : List Token → Outcome α) :
    Prop :=
  ∀ ts, Ahead tokens turns ts → m.Makes tokens depth ts (f ts)

namespace Makes

variable {tokens ts : List Token} {depth : Nat} {m : Moves α} {o : Outcome α}

theorem pure (a : α) (ts : List Token) :
    (Pure.pure a : Moves α).Makes tokens depth ts (.ok a ts) :=
  ⟨List.suffix_refl ts, rfl⟩

theorem throw (e : ParseError) (ts : List Token) :
    (MonadExcept.throw e : Moves α).Makes tokens depth ts (.error e ts) :=
  ⟨List.suffix_refl ts, rfl⟩

theorem throw_bind (e : ParseError) (next : α → Moves β) (ts : List Token) :
    (MonadExcept.throw e >>= next).Makes tokens depth ts (.error e ts) :=
  ⟨List.suffix_refl ts, rfl⟩

theorem bind (h : m.Makes tokens depth ts o) {next : α → Moves β} {f : α → List Token → Outcome β}
    (hn : ∀ a mid, o = .ok a mid → mid <:+ ts → (next a).Makes tokens depth mid (f a mid)) :
    (m >>= next).Makes tokens depth ts (o.bind f) := by
  obtain ⟨hsuffix, hrun⟩ := h
  cases o with
  | ok a mid =>
      have h := hn a mid rfl hsuffix
      refine ⟨h.rest_suffix.trans hsuffix, ?_⟩
      rw [run_bind, hrun]
      exact h.run_eq
  | error e mid =>
      refine ⟨hsuffix, ?_⟩
      rw [run_bind, hrun]
      rfl

theorem map (h : m.Makes tokens depth ts o) (f : α → β) :
    (m >>= fun a => Pure.pure (f a)).Makes tokens depth ts (o.map f) := by
  have hbind : (m >>= fun a => Pure.pure (f a)).Makes tokens depth ts
      (o.bind fun a rest => .ok (f a) rest) :=
    h.bind fun a mid _ _ => pure (f a) mid
  cases o <;> exact hbind

section Steps

variable {t : Token}

theorem peek {next : Option Token → Moves α} (hts : ts <:+ tokens)
    (h : (next ts.head?).Makes tokens depth ts o) :
    (Moves.peek >>= next).Makes tokens depth ts o := by
  refine ⟨h.rest_suffix, ?_⟩
  rw [run_peek_bind, Cursor.peek_before hts]
  exact h.run_eq

theorem advance {next : Option Token → Moves α} (hts : t :: ts <:+ tokens)
    (h : (next (some t)).Makes tokens depth ts o) :
    (Moves.advance >>= next).Makes tokens depth (t :: ts) o := by
  refine ⟨h.rest_suffix.trans (List.suffix_cons t ts), ?_⟩
  rw [run_advance_bind, Cursor.advance_before hts]
  exact h.run_eq

theorem line {next : Nat → Moves α} (hts : ts <:+ tokens)
    (h : (next (Grammar.lineAt (Cursor.endLine tokens) ts)).Makes tokens depth ts o) :
    (Moves.line >>= next).Makes tokens depth ts o := by
  refine ⟨h.rest_suffix, ?_⟩
  rw [run_line_bind, Cursor.line_before hts]
  exact h.run_eq

theorem atEnd {next : Bool → Moves α} (hts : ts <:+ tokens)
    (h : (next (ts.head?.all (·.kind = .eof))).Makes tokens depth ts o) :
    (Moves.atEnd >>= next).Makes tokens depth ts o := by
  refine ⟨h.rest_suffix, ?_⟩
  rw [run_atEnd_bind, Cursor.atEnd_before hts]
  exact h.run_eq

/-- A step forward that is taken back after a look at the next token. -/
theorem lookPast {p : Option Token → Bool} {m' : Moves α} (hts : t :: ts <:+ tokens)
    (hp : p ts.head? = false) (h : m.Makes tokens depth (t :: ts) o) :
    (Moves.advance >>= fun _ => Moves.peek >>= fun next =>
      if p next then m' else Moves.rewind >>= fun _ => m).Makes tokens depth (t :: ts) o := by
  refine ⟨h.rest_suffix, ?_⟩
  rw [run_advance_bind, Cursor.advance_before hts, run_peek_bind,
    Cursor.peek_before ((List.suffix_cons t ts).trans hts), hp]
  simp only [Bool.false_eq_true, ↓reduceIte]
  rw [run_rewind_bind, Cursor.rewind_before]
  exact h.run_eq

end Steps

/-- A loop ends in time if each turn that goes on has used a token. It comes to any outcome that is the same
before a turn and after it. -/
theorem loop {σ : Type} {turn : σ → Moves (σ ⊕ α)} {step : σ → List Token → Outcome (σ ⊕ α)}
    {f : σ → List Token → Outcome α} {turns n : Nat}
    (hturn : ∀ s ts, Ahead tokens turns ts → (turn s).Makes tokens depth ts (step s ts))
    (hstep : ∀ s s' ts mid, step s ts = .ok (.inl s') mid → mid.length < ts.length)
    (hf : ∀ s ts, f s ts = (step s ts).bind (Sum.elim f .ok))
    (s : σ) (hts : Ahead tokens turns ts) (hn : ts.length < n) :
    (Moves.loop turn n s).Makes tokens depth ts (f s ts) := by
  induction n generalizing s ts with
  | zero => cases hn
  | succ n ih =>
      rw [hf]
      refine (hturn s ts hts).bind fun next mid hmid hsuffix => ?_
      cases next with
      | inl s' =>
          -- The turns that remain are enough for the tokens that remain.
          have hlt := hstep s s' ts mid hmid
          exact ih s' (hts.of_suffix hsuffix) (by omega)
      | inr a => exact pure a mid

end Makes

end Moves

end Abacus
