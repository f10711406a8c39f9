import Abacus.Proofs.Syntax.LookAhead

/-!
What a parse error is about. An error names the token where the reading has stopped and reports its line,
unless it is about a construct that has begun before: then the line is that of the token the construct has
begun with, and this token has been used. No rule moves on or back once something is wrong, so this is
seen where the error arises, and carried through the rules around it.
-/
namespace Abacus

/-- The kind of the first token. A list that has run out counts as an `eof`. -/
def Grammar.kindAt : List Token → Token.Kind
  | [] => .eof
  | t :: _ => t.kind

/-- The kind of the next token, an `eof` if there is none. -/
def Cursor.kind (c : Cursor) : Token.Kind :=
  Grammar.kindAt c.rest

namespace ParseError

/-- What an error has to do with the place where it is found: with the tokens before it, and the kind and
the line that are found there. -/
def Blames (before : List Token) (kind : Token.Kind) (line : Nat) : ParseError → Prop
  | unexpectedToken found l => found = kind ∧ l = line
  | unexpectedEnd _ => kind = .eof
  | expectedIdentifier found l =>
    found = kind ∧ (∀ name, kind ≠ .identifier name) ∧ [⟨.keyword .var, l⟩] <:+ before
  | expectedAssign name found l =>
    found = kind ∧ kind ≠ .assign ∧ ∃ l', [⟨.keyword .var, l⟩, ⟨.identifier name, l'⟩] <:+ before
  | unclosedParen found l => found = kind ∧ l = line
  | unclosedBrace found l => found = kind ∧ l = line ∧ kind = .eof
  | trailingToken _ _ => False
  | reservedKeyword word l => word = .cond ∧ kind = .keyword .cond ∧ l = line
  | nestingTooDeep limit l => limit = 128 ∧ ∃ t ∈ before, t.line = l

/-- What stands further in front does not matter. -/
theorem Blames.append {before : List Token} {kind : Token.Kind} {line : Nat} {e : ParseError}
    (h : e.Blames before kind line) (first : List Token) : e.Blames (first ++ before) kind line := by
  cases e with
  | unexpectedToken | unexpectedEnd | unclosedParen | unclosedBrace | reservedKeyword => exact h
  | trailingToken => exact h.elim
  | expectedIdentifier found l =>
      obtain ⟨hfound, hname, hvar⟩ := h
      exact ⟨hfound, hname, hvar.trans (List.suffix_append first before)⟩
  | expectedAssign name found l =>
      obtain ⟨hfound, hassign, l', hhead⟩ := h
      exact ⟨hfound, hassign, l', hhead.trans (List.suffix_append first before)⟩
  | nestingTooDeep limit l =>
      obtain ⟨hlimit, t, ht, hline⟩ := h
      exact ⟨hlimit, t, List.mem_append_right first ht, hline⟩

end ParseError

open Grammar (kindAt lineAt)

namespace Outcome

variable {α β : Type} {endLine : Nat} {ts : List Token} {o : Outcome α}

/-- The tokens account for the outcome of reading them: some have been used, none of them an `eof`, and an
error blames the place behind these. -/
inductive Accounts (endLine : Nat) : List Token → Outcome α → Prop where
  | ok {a : α} {used rest : List Token} : (∀ t ∈ used, t.kind ≠ .eof) →
      Accounts endLine (used ++ rest) (ok a rest)
  | error {e : ParseError} {used rest : List Token} : (∀ t ∈ used, t.kind ≠ .eof) →
      e.Blames used (kindAt rest) (lineAt endLine rest) →
      Accounts endLine (used ++ rest) (error e rest)

namespace Accounts

theorem ok_unused (a : α) (ts : List Token) : Accounts endLine ts (Outcome.ok a ts) := by
  have h : Accounts endLine ([] ++ ts) (Outcome.ok a ts) := .ok nofun
  exact h

theorem error_unused {e : ParseError} (h : e.Blames [] (kindAt ts) (lineAt endLine ts)) :
    Accounts endLine ts (Outcome.error e ts : Outcome α) := by
  have h' : Accounts endLine ([] ++ ts) (Outcome.error e ts : Outcome α) := .error nofun h
  exact h'

theorem map (h : Accounts endLine ts o) (f : α → β) : Accounts endLine ts (o.map f) := by
  cases h with
  | ok hused => exact .ok hused
  | error hused he => exact .error hused he

theorem append {first : List Token} (h : Accounts endLine ts o)
    (hfirst : ∀ t ∈ first, t.kind ≠ .eof) : Accounts endLine (first ++ ts) o := by
  cases h with
  | ok hused =>
      rw [← List.append_assoc]
      exact .ok (List.forall_mem_append.2 ⟨hfirst, hused⟩)
  | error hused he =>
      rw [← List.append_assoc]
      exact .error (List.forall_mem_append.2 ⟨hfirst, hused⟩) (he.append first)

theorem cons {t : Token} (h : Accounts endLine ts o) (ht : t.kind ≠ .eof) :
    Accounts endLine (t :: ts) o := by
  have hfirst : ∀ u ∈ [t], u.kind ≠ .eof := by simpa using ht
  exact h.append hfirst

theorem bind (h : Accounts endLine ts o) {next : α → List Token → Outcome β}
    (hn : ∀ a mid, o = Outcome.ok a mid → Accounts endLine mid (next a mid)) :
    Accounts endLine ts (o.bind next) := by
  cases h with
  | ok hused => exact (hn _ _ rfl).append hused
  | error hused he => exact .error hused he

end Accounts

end Outcome

open Outcome

namespace Rule

variable {α : Type} {endLine : Nat}

/-- All tokens account for what the rule makes of them. -/
def Accounted (endLine : Nat) (rule : Rule α) : Prop :=
  ∀ ts, Accounts endLine ts (rule.run ts)

section Chain

variable {level : Level} {operand : Rule Expr}

theorem chainFrom_accounts (ho : operand.Accounted endLine) (left : Expr) (ts : List Token) :
    Accounts endLine ts (chainFrom level operand left ts) := by
  induction left, ts using chain_induction level operand with
  | stop left ts hne =>
      rw [chainFrom_of_no_operator hne]
      exact .ok_unused left ts
  | operator left t op ts hop hl ih =>
      have heof : t.kind ≠ .eof := by
        intro hk
        rw [hk] at hop
        cases hop
      rw [chainFrom_cons hop hl]
      exact ((ho ts).bind ih).cons heof

theorem Accounted.chain (level : Level) (ho : operand.Accounted endLine) :
    (Rule.chain level operand).Accounted endLine :=
  fun ts => (ho ts).bind fun left mid _ => chainFrom_accounts ho left mid

end Chain

section Arguments

variable {argument : Rule Expr}

theorem argumentsFrom_accounts (ha : argument.Accounted endLine) (ts : List Token) :
    Accounts endLine ts (argumentsFrom endLine argument ts) := by
  induction ts using arguments_induction argument with
  | step ts ih =>
      rw [argumentsFrom_eq_bind]
      refine (ha ts).bind fun a mid hmid => ?_
      cases mid with
      | nil => exact .error_unused ⟨rfl, rfl⟩
      | cons t rest =>
          simp only [argumentsAfter]
          split
          · next hk => exact ((ih a t rest hmid).map (a :: ·)).cons (by simp [hk])
          · split
            · next hk => exact (Accounts.ok_unused [a] rest).cons (by simp [hk])
            · exact .error_unused ⟨rfl, rfl⟩

theorem arguments_accounts (ha : argument.Accounted endLine) (ts : List Token) :
    Accounts endLine ts (arguments endLine argument ts) := by
  cases ts with
  | nil => exact argumentsFrom_accounts ha []
  | cons t ts =>
      simp only [arguments]
      split
      · next hk => exact (Accounts.ok_unused [] ts).cons (by simp [hk])
      · exact argumentsFrom_accounts ha (t :: ts)

end Arguments

/-- Where something is not closed, what is there instead is blamed. -/
theorem closing_accounts {kind : Token.Kind} {unclosed : Token.Kind → Nat → ParseError}
    (hkind : kind ≠ .eof) (a : α) {ts : List Token}
    (h : kindAt ts ≠ kind →
      (unclosed (kindAt ts) (lineAt endLine ts)).Blames [] (kindAt ts) (lineAt endLine ts)) :
    Accounts endLine ts (closing kind unclosed endLine a ts) := by
  cases ts with
  | nil => exact .error_unused (h hkind.symm)
  | cons t ts =>
      simp only [closing]
      split
      · next hk => exact (Accounts.ok_unused a ts).cons (hk ▸ hkind)
      · next hk => exact .error_unused (h hk)

section Statements

variable {statement : Rule Statement}

theorem statements_accounts (hs : statement.Accounted endLine) (ts : List Token) :
    Accounts endLine ts (statements statement ts) := by
  induction ts using statements_induction statement with
  | stop ts hend =>
      rw [statements_of_ends hend]
      exact .ok_unused [] ts
  | more t ts hk ih =>
      rw [statements_cons hk]
      exact (hs (t :: ts)).bind fun s mid hmid => (ih s mid hmid).map (s :: ·)

/-- Statements only stop where a block can end. -/
theorem kindAt_of_statements {ts rest : List Token} {body : List Statement}
    (h : statements statement ts = .ok body rest) :
    kindAt rest = .eof ∨ kindAt rest = .rightBrace := by
  induction ts using statements_induction statement generalizing body with
  | stop ts hend =>
      rw [statements_of_ends hend] at h
      obtain ⟨_, rfl⟩ := Outcome.ok.inj h
      cases ts with
      | nil => exact .inl rfl
      | cons t ts => simpa [endsStatements, kindAt] using hend t rfl
  | more t ts hk ih =>
      rw [statements_cons hk] at h
      obtain ⟨s, mid, hmid, hrest⟩ := bind_eq_ok_iff.1 h
      obtain ⟨_, hbody, _⟩ := map_eq_ok_iff.1 hrest
      exact ih s mid hmid hbody

end Statements

end Rule

namespace Grammar

/-- All tokens account for what the rules of a grammar make of them. -/
structure Accounted (endLine : Nat) (g : Grammar) : Prop where
  factor : g.factor.Accounted endLine
  assignment : g.assignment.Accounted endLine
  statement : g.statement.Accounted endLine

variable {α : Type} {g : Grammar} {endLine : Nat} {inner : Option Grammar} {ts : List Token}

/-- The token that would open a level too many is among those that have been used. -/
theorem nested_accounts {body : Grammar → List Token → Outcome α}
    (hi : ∀ g ∈ inner, g.Accounted endLine) (first : List Token) (t : Token) (ht : t ∈ first)
    (hfirst : ∀ u ∈ first, u.kind ≠ .eof)
    (hb : ∀ {g}, g.Accounted endLine → Accounts endLine ts (body g ts)) :
    Accounts endLine (first ++ ts) (nested inner t.line body ts) := by
  cases inner with
  | none => exact .error hfirst ⟨rfl, t, ht, rfl⟩
  | some g => exact (hb (hi g rfl)).append hfirst

theorem group_accounts (h : g.Accounted endLine) (ts : List Token) :
    Accounts endLine ts (group endLine g ts) := by
  rw [group_eq_bind]
  exact (h.assignment ts).bind fun e mid _ =>
    Rule.closing_accounts (by decide) _ fun _ => ⟨rfl, rfl⟩

theorem braced_accounts {statement : Rule Statement} (h : statement.Accounted endLine)
    (ts : List Token) : Accounts endLine ts (braced endLine statement ts) := by
  rw [braced_eq_bind]
  refine (Rule.statements_accounts h ts).bind fun body mid hmid =>
    Rule.closing_accounts (by decide) _ fun hne => ⟨rfl, rfl, ?_⟩
  exact (Rule.kindAt_of_statements hmid).resolve_right hne

theorem nameOrCall_accounts (hi : ∀ g ∈ inner, g.Accounted endLine) {t : Token} {name : String}
    (ht : t.kind = .identifier name) (ts : List Token) :
    Accounts endLine (t :: ts) (nameOrCall endLine inner t.line name ts) := by
  cases ts with
  | nil => exact (Accounts.ok_unused _ []).cons (by simp [ht])
  | cons u ts =>
      simp only [nameOrCall]
      split
      · next hk =>
        refine (nested_accounts hi [t, u] t (by simp) (by simp [ht, hk]) fun h => ?_).map
          (Expr.call t.line name)
        exact Rule.arguments_accounts h.assignment ts
      · exact (Accounts.ok_unused _ (u :: ts)).cons (by simp [ht])

theorem factorRule_accounted (hi : ∀ g ∈ inner, g.Accounted endLine) :
    (factorRule endLine inner).Accounted endLine := by
  intro ts
  change Accounts endLine ts (readFactor endLine inner ts)
  cases ts with
  | nil => exact .error_unused rfl
  | cons t ts =>
      rw [readFactor]
      split
      case h_1 hk | h_2 hk =>
        exact (nested_accounts hi [t] t (by simp) (by simp [hk]) fun h => h.factor ts).map _
      case h_3 hk | h_4 hk => exact (Accounts.ok_unused _ ts).cons (by simp [hk])
      case h_5 name hk => exact nameOrCall_accounts hi hk ts
      case h_6 hk =>
        exact nested_accounts hi [t] t (by simp) (by simp [hk]) fun h => group_accounts h ts
      case h_7 hk => exact .error_unused ⟨rfl, hk, rfl⟩
      case h_8 hk => exact .error_unused hk
      case h_9 => exact .error_unused ⟨rfl, rfl⟩

theorem logical_accounted {factor : Rule Expr} (hf : factor.Accounted endLine) :
    (logical factor).Accounted endLine :=
  (((hf.chain .multiplicative).chain .additive).chain .comparison).chain .logical

theorem assignmentRule_accounted (hi : ∀ g ∈ inner, g.Accounted endLine) :
    (assignmentRule endLine inner).Accounted endLine := by
  intro ts
  change Accounts endLine ts (readAssignment inner (logical (factorRule endLine inner)) ts)
  by_cases htarget : HasTarget ts
  · obtain ⟨name, line, line', mid, rfl⟩ := htarget
    exact (nested_accounts hi [⟨.identifier name, line⟩, ⟨.assign, line'⟩] ⟨.identifier name, line⟩
      (by simp) (by simp) fun h => h.assignment mid).map _
  · rw [readAssignment_of_not_hasTarget htarget]
    exact logical_accounted (factorRule_accounted hi) ts

/-- The head of a declaration is blamed for what is missing in it. -/
theorem readDeclaration_accounts {assignment : Rule Expr} (ha : assignment.Accounted endLine)
    (line : Nat) (ts : List Token) :
    Accounts endLine (⟨.keyword .var, line⟩ :: ts) (readDeclaration assignment line ts) := by
  have hvar : ∀ t ∈ [(⟨.keyword .var, line⟩ : Token)], t.kind ≠ .eof := by simp
  cases ts with
  | nil => exact .error hvar ⟨rfl, nofun, List.suffix_refl _⟩
  | cons t ts =>
      by_cases hname : ∃ name, t.kind = .identifier name
      · obtain ⟨kind, line'⟩ := t
        obtain ⟨name, rfl : kind = _⟩ := hname
        have hhead : ∀ t ∈ [(⟨.keyword .var, line⟩ : Token), ⟨.identifier name, line'⟩],
            t.kind ≠ .eof := by simp
        cases ts with
        | nil => exact .error hhead rfl
        | cons t ts =>
            simp only [readDeclaration]
            split
            · next hk =>
              exact (((ha ts).map (Statement.declare line name)).cons (by simp [hk])).append hhead
            · next hk => exact .error hhead ⟨rfl, hk, line', List.suffix_refl _⟩
      · have hne : ∀ name, t.kind ≠ .identifier name := fun name h => hname ⟨name, h⟩
        rw [readDeclaration_of_ne hne]
        exact .error hvar ⟨rfl, hne, List.suffix_refl _⟩

theorem statementRule_accounted (hi : ∀ g ∈ inner, g.Accounted endLine) :
    (statementRule endLine inner).Accounted endLine := by
  intro ts
  have ha : (assignmentRule endLine inner).Accounted endLine := assignmentRule_accounted hi
  change Accounts endLine ts (readStatement endLine inner (assignmentRule endLine inner) ts)
  cases ts with
  | nil => exact (ha []).map Statement.expression
  | cons t ts =>
      simp only [readStatement]
      split
      · next hk =>
        obtain ⟨kind, line⟩ := t
        obtain rfl : kind = _ := hk
        exact readDeclaration_accounts ha line ts
      · next hk =>
        exact (nested_accounts hi [t] t (by simp) (by simp [hk]) fun h =>
          braced_accounts h.statement ts).map (Statement.block t.line)
      · exact (ha (t :: ts)).map Statement.expression

theorem next_accounted (hi : ∀ g ∈ inner, g.Accounted endLine) :
    (next endLine inner).Accounted endLine :=
  ⟨factorRule_accounted hi, assignmentRule_accounted hi, statementRule_accounted hi⟩

theorem withRoom_accounted (endLine room : Nat) : (withRoom endLine room).Accounted endLine := by
  induction room with
  | zero => exact next_accounted nofun
  | succ room ih =>
      refine next_accounted fun g hg => ?_
      obtain rfl := Option.some.inj hg
      exact ih

end Grammar

theorem Production.read_accounts {α : Type} (p : Production α) (endLine room : Nat)
    (ts : List Token) : Accounts endLine ts (p.read endLine room ts) := by
  have h := Grammar.withRoom_accounted endLine room
  have hm := h.factor.chain .multiplicative
  have ha := hm.chain .additive
  have hc := ha.chain .comparison
  cases p with
  | block => exact (Rule.statements_accounts h.statement ts).map _
  | braced line => exact (Grammar.braced_accounts h.statement ts).map _
  | statement => exact h.statement ts
  | assignment => exact h.assignment ts
  | logical => exact hc.chain .logical ts
  | comparison => exact hc ts
  | additive => exact ha ts
  | multiplicative => exact hm ts
  | factor => exact h.factor ts

/-- An error blames the place that the cursor has come to. No `eof` is before it. -/
theorem Cursor.blames_of_read {α : Type} {p : Production α} {ts : List Token} {e : ParseError}
    {c : Cursor} (h : (start ts).read p = (.error e, c)) :
    c.position ≤ ts.length ∧ (∀ t ∈ ts.take c.position, t.kind ≠ .eof) ∧
      e.Blames (ts.take c.position) c.kind c.line := by
  have haccounts := p.read_accounts (endLine ts) nestingLimit ts
  simp only [read, start, rest, List.drop_zero, Nat.sub_zero, Prod.mk.injEq] at h
  generalize p.read (endLine ts) nestingLimit ts = o at h haccounts
  obtain ⟨hresult, rfl⟩ := h
  cases haccounts with
  | ok => cases hresult
  | @error e' used rest hused he =>
      obtain rfl := Except.error.inj hresult
      have hposition : (used ++ rest).length - rest.length = used.length := by simp
      simp only [Outcome.rest, hposition, kind, line, Cursor.rest, List.take_left, List.drop_left]
      exact ⟨by simp, hused, he⟩

/-- A declaration in a block in a block lacks its `=`, behind a name on another line than its `var`. -/
theorem Cursor.blames_of_read_declaration :
    let ts : List Token := [⟨.leftBrace, 1⟩, ⟨.leftBrace, 1⟩, ⟨.keyword .var, 2⟩, ⟨.identifier "x", 3⟩,
      ⟨.equal, 4⟩, ⟨.integer 1, 4⟩, ⟨.eof, 5⟩]
    let e : ParseError := .expectedAssign "x" .equal 2
    let c : Cursor := ⟨ts, 4, 0⟩
    (start ts).read .statement = (.error e, c) ∧ 4 ≤ ts.length ∧
      (∀ t ∈ ts.take 4, t.kind ≠ .eof) ∧ e.Blames (ts.take 4) c.kind c.line := by
  intro ts e c
  have h : (start ts).read .statement = (.error e, c) := by with_unfolding_all rfl
  exact ⟨h, blames_of_read h⟩

end Abacus
