import Abacus.Proofs.Syntax.Lines
import Abacus.Proofs.Syntax.LookAhead

/-!
Reading renumbered tokens. No rule compares lines or makes one up: each line of a tree or of an error is
that of some token, or the one that the end of the list is reported on. So the rules read a list with
renumbered lines as they read the list itself, and what they return is renumbered in the same way.
-/
namespace Abacus

def ParseError.mapLine (r : Nat → Nat) : ParseError → ParseError
  | unexpectedToken found line => unexpectedToken found (r line)
  | unexpectedEnd line => unexpectedEnd (r line)
  | expectedIdentifier found line => expectedIdentifier found (r line)
  | expectedAssign name found line => expectedAssign name found (r line)
  | unclosedParen found line => unclosedParen found (r line)
  | unclosedBrace found line => unclosedBrace found (r line)
  | trailingToken found line => trailingToken found (r line)
  | reservedKeyword word line => reservedKeyword word (r line)
  | nestingTooDeep limit line => nestingTooDeep limit (r line)

def Block.mapLines (r : Nat → Nat) (b : Block) : Block :=
  ⟨r b.line, Statement.mapLinesAll r b.statements⟩

@[simp] theorem Token.kind_mapLine (r : Nat → Nat) (t : Token) : (t.mapLine r).kind = t.kind := rfl

@[simp] theorem Token.line_mapLine (r : Nat → Nat) (t : Token) : (t.mapLine r).line = r t.line := rfl

/-- Renumbering keeps the kind of the next token. -/
theorem Token.forall_head?_map {r : Nat → Nat} (p : Kind → Prop) {ts : List Token}
    (h : ∀ t ∈ ts.head?, p t.kind) : ∀ t ∈ (ts.map (·.mapLine r)).head?, p t.kind := by
  cases ts with
  | nil => nofun
  | cons t ts =>
      rintro _ ⟨⟩
      exact h t rfl

namespace Outcome

variable {α β : Type} {r : Nat → Nat} {f : α → α} {f' : β → β}

/-- An outcome on renumbered lines, where `f` renumbers what was read. -/
def renumber (r : Nat → Nat) (f : α → α) : Outcome α → Outcome α
  | ok a rest => ok (f a) (rest.map (·.mapLine r))
  | error e rest => error (e.mapLine r) (rest.map (·.mapLine r))

theorem renumber_map {o o' : Outcome α} (ho : o' = o.renumber r f) {g g' : α → β}
    (hg : ∀ a, g' (f a) = f' (g a)) : o'.map g' = (o.map g).renumber r f' := by
  subst ho
  cases o with
  | ok a rest => exact congrArg (ok · (rest.map (·.mapLine r))) (hg a)
  | error e rest => rfl

theorem renumber_bind {o : Outcome α} {next next' : α → List Token → Outcome β}
    (h : ∀ a mid, o = ok a mid → next' (f a) (mid.map (·.mapLine r)) = (next a mid).renumber r f') :
    (o.renumber r f).bind next' = (o.bind next).renumber r f' := by
  cases o with
  | ok a rest => exact h a rest rfl
  | error e rest => rfl

end Outcome

open Outcome

namespace Rule

variable {α : Type} {r : Nat → Nat} {endLine : Nat}

/-- The second rule reads renumbered tokens as the first reads the tokens themselves. -/
def Renumbers (r : Nat → Nat) (f : α → α) (rule rule' : Rule α) : Prop :=
  ∀ ts, rule'.run (ts.map (·.mapLine r)) = (rule.run ts).renumber r f

section Chain

variable {level : Level} {operand operand' : Rule Expr}

theorem chainFrom_renumber (ho : operand.Renumbers r (Expr.mapLines r) operand') (left : Expr)
    (ts : List Token) :
    chainFrom level operand' (left.mapLines r) (ts.map (·.mapLine r)) =
      (chainFrom level operand left ts).renumber r (Expr.mapLines r) := by
  induction left, ts using chain_induction level operand with
  | stop left ts hstop =>
      rw [chainFrom_of_no_operator hstop,
        chainFrom_of_no_operator
          (Token.forall_head?_map (fun kind => ∀ op ∈ kind.binOp?, op.level ≠ level) hstop)]
      rfl
  | operator left t op ts hop hl ih =>
      rw [List.map_cons, chainFrom_cons (t := t.mapLine r) hop hl, chainFrom_cons hop hl, ho ts]
      exact renumber_bind ih

theorem Renumbers.chain (level : Level) (ho : operand.Renumbers r (Expr.mapLines r) operand') :
    (Rule.chain level operand).Renumbers r (Expr.mapLines r) (Rule.chain level operand') := by
  intro ts
  change (operand'.run _).bind _ = _
  rw [ho ts]
  exact renumber_bind fun left mid _ => chainFrom_renumber ho left mid

end Chain

section Arguments

variable {argument argument' : Rule Expr}

theorem argumentsFrom_renumber (ha : argument.Renumbers r (Expr.mapLines r) argument')
    (ts : List Token) :
    argumentsFrom (r endLine) argument' (ts.map (·.mapLine r)) =
      (argumentsFrom endLine argument ts).renumber r (Expr.mapLinesAll r) := by
  induction ts using arguments_induction argument with
  | step ts ih =>
      rw [argumentsFrom_eq_bind, argumentsFrom_eq_bind, ha ts]
      refine renumber_bind fun a mid hmid => ?_
      cases mid with
      | nil => rfl
      | cons t mid =>
          by_cases hcomma : t.kind = .comma
          · simp only [List.map_cons, argumentsAfter, Token.kind_mapLine, hcomma, ↓reduceIte]
            exact renumber_map (ih a t mid hmid) fun _ => rfl
          · by_cases hclose : t.kind = .rightParen
            · simp only [List.map_cons, argumentsAfter, Token.kind_mapLine, hclose, reduceCtorEq,
                ↓reduceIte]
              rfl
            · simp only [List.map_cons, argumentsAfter, Token.kind_mapLine, hcomma, hclose, ↓reduceIte]
              rfl

theorem arguments_renumber (ha : argument.Renumbers r (Expr.mapLines r) argument')
    (ts : List Token) :
    arguments (r endLine) argument' (ts.map (·.mapLine r)) =
      (arguments endLine argument ts).renumber r (Expr.mapLinesAll r) := by
  cases ts with
  | nil => exact argumentsFrom_renumber ha []
  | cons t ts =>
      by_cases hclose : t.kind = .rightParen
      · simp only [List.map_cons, arguments, Token.kind_mapLine, hclose, ↓reduceIte]
        rfl
      · simp only [List.map_cons, arguments, Token.kind_mapLine, hclose, ↓reduceIte]
        exact argumentsFrom_renumber ha (t :: ts)

end Arguments

theorem closing_renumber {kind : Token.Kind} {unclosed : Token.Kind → Nat → ParseError} {f : α → α}
    (hu : ∀ found line, (unclosed found line).mapLine r = unclosed found (r line)) {a a' : α}
    (ha : a' = f a) (ts : List Token) :
    closing kind unclosed (r endLine) a' (ts.map (·.mapLine r)) =
      (closing kind unclosed endLine a ts).renumber r f := by
  subst ha
  cases ts with
  | nil => exact congrArg (error · []) (hu _ _).symm
  | cons t ts =>
      by_cases hk : t.kind = kind
      · simp only [List.map_cons, closing, Token.kind_mapLine, hk, ↓reduceIte]
        rfl
      · simp only [List.map_cons, closing, Token.kind_mapLine, hk, ↓reduceIte]
        exact congrArg (error · ((t :: ts).map (·.mapLine r))) (hu _ _).symm

theorem statements_renumber {statement statement' : Rule Statement}
    (hs : statement.Renumbers r (Statement.mapLines r) statement') (ts : List Token) :
    statements statement' (ts.map (·.mapLine r)) =
      (statements statement ts).renumber r (Statement.mapLinesAll r) := by
  induction ts using statements_induction statement with
  | stop ts hend =>
      rw [statements_of_ends hend,
        statements_of_ends (Token.forall_head?_map (endsStatements ·) hend)]
      rfl
  | more t ts hk ih =>
      have hrun := hs (t :: ts)
      rw [List.map_cons] at hrun ⊢
      rw [statements_cons (t := t.mapLine r) hk, statements_cons hk, hrun]
      exact renumber_bind fun s mid hmid => renumber_map (ih s mid hmid) fun _ => rfl

end Rule

namespace Grammar

/-- The rules of the second grammar read renumbered tokens as those of the first read the tokens
themselves. -/
structure Renumbers (r : Nat → Nat) (g g' : Grammar) : Prop where
  factor : g.factor.Renumbers r (Expr.mapLines r) g'.factor
  assignment : g.assignment.Renumbers r (Expr.mapLines r) g'.assignment
  statement : g.statement.Renumbers r (Statement.mapLines r) g'.statement

variable {α : Type} {r : Nat → Nat} {endLine : Nat} {g g' : Grammar} {inner inner' : Option Grammar}

theorem nested_renumber {f : α → α} {body body' : Grammar → List Token → Outcome α} (line : Nat)
    {ts : List Token} (hi : Option.Rel (Renumbers r) inner inner')
    (hb : ∀ g g', g.Renumbers r g' → body' g' (ts.map (·.mapLine r)) = (body g ts).renumber r f) :
    nested inner' (r line) body' (ts.map (·.mapLine r)) =
      (nested inner line body ts).renumber r f := by
  cases hi with
  | some h => exact hb _ _ h
  | none => rfl

theorem group_renumber (h : g.Renumbers r g') (ts : List Token) :
    group (r endLine) g' (ts.map (·.mapLine r)) =
      (group endLine g ts).renumber r (Expr.mapLines r) := by
  rw [group_eq_bind, group_eq_bind, h.assignment ts]
  refine renumber_bind fun e mid _ => Rule.closing_renumber (fun _ _ => rfl) ?_ mid
  rfl

theorem braced_renumber {statement statement' : Rule Statement}
    (h : statement.Renumbers r (Statement.mapLines r) statement') (ts : List Token) :
    braced (r endLine) statement' (ts.map (·.mapLine r)) =
      (braced endLine statement ts).renumber r (Statement.mapLinesAll r) := by
  rw [braced_eq_bind, braced_eq_bind, Rule.statements_renumber h ts]
  exact renumber_bind fun body mid _ => Rule.closing_renumber (fun _ _ => rfl) rfl mid

theorem nameOrCall_renumber (hi : Option.Rel (Renumbers r) inner inner') (line : Nat) (name : String)
    (ts : List Token) :
    nameOrCall (r endLine) inner' (r line) name (ts.map (·.mapLine r)) =
      (nameOrCall endLine inner line name ts).renumber r (Expr.mapLines r) := by
  cases ts with
  | nil => rfl
  | cons t ts =>
      by_cases hcall : t.kind = .leftParen
      · simp only [List.map_cons, nameOrCall, Token.kind_mapLine, hcall, ↓reduceIte]
        exact renumber_map
          (nested_renumber line hi fun _ _ h => Rule.arguments_renumber h.assignment ts) fun _ => rfl
      · simp only [List.map_cons, nameOrCall, Token.kind_mapLine, hcall, ↓reduceIte]
        rfl

theorem factorRule_renumbers (hi : Option.Rel (Renumbers r) inner inner') :
    (factorRule endLine inner).Renumbers r (Expr.mapLines r) (factorRule (r endLine) inner') := by
  intro ts
  change readFactor (r endLine) inner' _ = (readFactor endLine inner ts).renumber r (Expr.mapLines r)
  cases ts with
  | nil => rfl
  | cons t ts =>
      obtain ⟨kind, line⟩ := t
      cases kind with
      | minus | bang =>
          exact renumber_map (nested_renumber line hi fun _ _ h => h.factor ts) fun _ => rfl
      | identifier name => exact nameOrCall_renumber hi line name ts
      | leftParen => exact nested_renumber line hi fun _ _ h => group_renumber h ts
      | keyword word => cases word <;> rfl
      | float _ | integer _ | plus | star | slash | rightParen | leftBrace | rightBrace | comma
      | assign | equal | notEqual | and | or | less | greater | newline | blank | eof => rfl

theorem logical_renumbers {factor factor' : Rule Expr}
    (h : factor.Renumbers r (Expr.mapLines r) factor') :
    (logical factor).Renumbers r (Expr.mapLines r) (logical factor') :=
  (((h.chain .multiplicative).chain .additive).chain .comparison).chain .logical

theorem hasTarget_map {ts : List Token} : HasTarget (ts.map (·.mapLine r)) ↔ HasTarget ts := by
  constructor
  · rintro ⟨name, line, line', mid, h⟩
    match ts with
    | ⟨kind, _⟩ :: ⟨kind', _⟩ :: ts =>
        simp only [List.map_cons, Token.mapLine, List.cons.injEq, Token.mk.injEq] at h
        obtain ⟨⟨rfl, _⟩, ⟨rfl, _⟩, _⟩ := h
        exact ⟨name, _, _, ts, rfl⟩
  · rintro ⟨name, line, line', mid, rfl⟩
    exact ⟨name, r line, r line', mid.map (·.mapLine r), rfl⟩

theorem assignmentRule_renumbers (hi : Option.Rel (Renumbers r) inner inner') :
    (assignmentRule endLine inner).Renumbers r (Expr.mapLines r)
      (assignmentRule (r endLine) inner') := by
  intro ts
  change readAssignment inner' _ _ =
    (readAssignment inner (logical (factorRule endLine inner)) ts).renumber r (Expr.mapLines r)
  by_cases htarget : HasTarget ts
  · obtain ⟨name, line, line', mid, rfl⟩ := htarget
    exact renumber_map (nested_renumber line hi fun _ _ h => h.assignment mid) fun _ => rfl
  · rw [readAssignment_of_not_hasTarget htarget,
      readAssignment_of_not_hasTarget (mt hasTarget_map.1 htarget)]
    exact logical_renumbers (factorRule_renumbers hi) ts

theorem readDeclaration_renumber {assignment assignment' : Rule Expr}
    (ha : assignment.Renumbers r (Expr.mapLines r) assignment') (line : Nat) (ts : List Token) :
    readDeclaration assignment' (r line) (ts.map (·.mapLine r)) =
      (readDeclaration assignment line ts).renumber r (Statement.mapLines r) := by
  match ts with
  | [] => rfl
  | t :: ts =>
      by_cases hname : ∃ name, t.kind = .identifier name
      · obtain ⟨kind, line'⟩ := t
        obtain ⟨name, rfl : kind = _⟩ := hname
        cases ts with
        | nil => rfl
        | cons t ts =>
            by_cases hk : t.kind = .assign
            · simp only [List.map_cons, Token.mapLine, readDeclaration, hk, ↓reduceIte]
              exact renumber_map (ha ts) fun _ => rfl
            · simp only [List.map_cons, Token.mapLine, readDeclaration, hk, ↓reduceIte]
              rfl
      · have hne : ∀ name, t.kind ≠ .identifier name := fun name h => hname ⟨name, h⟩
        rw [List.map_cons, readDeclaration_of_ne hne, readDeclaration_of_ne (t := t.mapLine r) hne]
        rfl

theorem statementRule_renumbers (hi : Option.Rel (Renumbers r) inner inner') :
    (statementRule endLine inner).Renumbers r (Statement.mapLines r)
      (statementRule (r endLine) inner') := by
  intro ts
  have ha : (assignmentRule endLine inner).Renumbers r (Expr.mapLines r)
      (assignmentRule (r endLine) inner') := assignmentRule_renumbers hi
  change readStatement (r endLine) inner' _ _ =
    (readStatement endLine inner (assignmentRule endLine inner) ts).renumber r (Statement.mapLines r)
  by_cases hvar : ∃ t ∈ ts.head?, t.kind = .keyword .var
  · obtain ⟨t, ht, hk⟩ := hvar
    obtain ⟨ts, rfl⟩ := List.head?_eq_some_iff.1 ht
    simp only [List.map_cons, readStatement, Token.kind_mapLine, hk]
    exact readDeclaration_renumber ha t.line ts
  by_cases hbrace : ∃ t ∈ ts.head?, t.kind = .leftBrace
  · obtain ⟨t, ht, hk⟩ := hbrace
    obtain ⟨ts, rfl⟩ := List.head?_eq_some_iff.1 ht
    simp only [List.map_cons, readStatement, Token.kind_mapLine, hk]
    exact renumber_map
      (nested_renumber t.line hi fun _ _ h => braced_renumber h.statement ts) fun _ => rfl
  have hv : ∀ t ∈ ts.head?, t.kind ≠ .keyword .var := fun t ht hk => hvar ⟨t, ht, hk⟩
  have hb : ∀ t ∈ ts.head?, t.kind ≠ .leftBrace := fun t ht hk => hbrace ⟨t, ht, hk⟩
  rw [readStatement_of_ne hv hb,
    readStatement_of_ne (Token.forall_head?_map (· ≠ .keyword .var) hv)
      (Token.forall_head?_map (· ≠ .leftBrace) hb)]
  exact renumber_map (ha ts) fun _ => rfl

theorem next_renumbers (hi : Option.Rel (Renumbers r) inner inner') :
    (next endLine inner).Renumbers r (next (r endLine) inner') :=
  ⟨factorRule_renumbers hi, assignmentRule_renumbers hi, statementRule_renumbers hi⟩

theorem withRoom_renumbers (r : Nat → Nat) (endLine room : Nat) :
    (withRoom endLine room).Renumbers r (withRoom (r endLine) room) := by
  induction room with
  | zero => exact next_renumbers .none
  | succ room ih => exact next_renumbers (.some ih)

end Grammar

section Programs

variable (r : Nat → Nat) {ts : List Token}

theorem Cursor.endLine_map (h : ts ≠ []) :
    endLine (ts.map (·.mapLine r)) = r (endLine ts) := by
  rw [endLine, endLine, List.getLast?_map, List.getLast?_eq_some_getLast h]
  rfl

/-- Renumbered tokens spell the renumbered program, or are wrong for the same reason on the
renumbered line. An empty list is reported on a line of its own, which is not renumbered. -/
theorem parse_map (h : ts ≠ []) :
    parse (ts.map (·.mapLine r)) = ((parse ts).map (·.mapLines r)).mapError (·.mapLine r) := by
  have hread : Production.block.read (r (Cursor.endLine ts)) nestingLimit (ts.map (·.mapLine r)) =
      (Production.block.read (Cursor.endLine ts) nestingLimit ts).renumber r (Block.mapLines r) := by
    have hline : Grammar.lineAt (r (Cursor.endLine ts)) (ts.map (·.mapLine r)) =
        r (Grammar.lineAt (Cursor.endLine ts) ts) := by cases ts <;> rfl
    simp only [Production.read, Production.readWith, hline]
    exact renumber_map
      (Rule.statements_renumber (Grammar.withRoom_renumbers r _ _).statement ts) fun _ => rfl
  unfold parse
  rw [Cursor.endLine_map r h, hread]
  cases Production.block.read (Cursor.endLine ts) nestingLimit ts with
  | error e rest => rfl
  | ok b rest =>
      -- What is left behind the block decides by its kinds alone.
      cases rest with
      | nil => rfl
      | cons t rest =>
          by_cases hk : t.kind = .eof
          · have hk' : (t.mapLine r).kind = .eof := hk
            cases rest <;> simp only [renumber, List.map, hk, hk', if_true] <;> rfl
          · have hk' : (t.mapLine r).kind ≠ .eof := hk
            simp only [renumber, List.map, hk, hk', if_false]
            rfl

end Programs

end Abacus
