import Abacus.Proofs.Syntax.LookAhead

/-!
The end of the tokens. A list of tokens that just ends is read like one that ends with an `eof` on the
line of the last token, with one exception, a declaration that stops behind its name. The rules take a
list that has run out for an `eof` wherever they look for a token, except there. So the two readings
agree step by step, and all that has to be kept track of is whether the tokens that were used end inside
the head of a declaration.
-/
namespace Abacus

/-- What tokens may end with: the beginning of a declaration. -/
inductive Token.Head where
  | none
  | var (line : Nat)
  /-- The name, and the line of the `var`. -/
  | name (name : String) (line : Nat)

namespace Token

def Head.after : Head → Token → Head
  | _, ⟨.keyword .var, line⟩ => .var line
  | .var line, ⟨.identifier x, _⟩ => .name x line
  | _, _ => .none

/-- The beginning of a declaration that some tokens end with. -/
def openHead (ts : List Token) : Head :=
  ts.foldl Head.after .none

theorem Head.after_none {t : Token} (h : t.kind ≠ .keyword .var) : Head.none.after t = .none := by
  unfold after
  split
  · exact absurd rfl h
  · contradiction
  · rfl

theorem openHead_append {used : List Token} (h : openHead used = .none) (ts : List Token) :
    openHead (used ++ ts) = openHead ts := by
  rw [openHead, List.foldl_append]
  exact congrArg (ts.foldl Head.after) h

theorem openHead_name (init : List Token) (name : String) (line line' : Nat) :
    openHead (init ++ [⟨.keyword .var, line⟩, ⟨.identifier name, line'⟩]) = .name name line := by
  rw [openHead, List.foldl_append]
  cases init.foldl Head.after .none <;> rfl

end Token

open Token

namespace Outcome

variable {α β : Type} {endLine : Nat} {ts : List Token} {o o' : Outcome α}

/-- The outcome of reading tokens, and that of reading them in front of an `eof`. -/
inductive EndsAlike (endLine : Nat) : List Token → Outcome α → Outcome α → Prop where
  | ok {a : α} {used rest : List Token} : openHead used = .none →
      EndsAlike endLine (used ++ rest) (ok a rest) (ok a (rest ++ [⟨.eof, endLine⟩]))
  | error {e : ParseError} {ts rest : List Token} :
      (rest = [] → ∀ name line, openHead ts ≠ .name name line) →
      EndsAlike endLine ts (error e rest) (error e (rest ++ [⟨.eof, endLine⟩]))
  | unassigned {init : List Token} {name : String} {line line' : Nat} :
      EndsAlike endLine (init ++ [⟨.keyword .var, line⟩, ⟨.identifier name, line'⟩])
        (error (.unexpectedEnd line) []) (error (.expectedAssign name .eof line) [⟨.eof, endLine⟩])

namespace EndsAlike

theorem ok_unused (a : α) (ts : List Token) :
    EndsAlike endLine ts (Outcome.ok a ts) (Outcome.ok a (ts ++ [⟨.eof, endLine⟩])) := by
  have hused : openHead [] = .none := rfl
  exact (EndsAlike.ok hused : EndsAlike endLine ([] ++ ts) _ _)

theorem error_unused (e : ParseError) (ts : List Token) :
    EndsAlike (α := α) endLine ts (Outcome.error e ts)
      (Outcome.error e (ts ++ [⟨.eof, endLine⟩])) := by
  refine .error ?_
  rintro rfl
  nofun

/-- An error that blames a token, however far in front of it the reading has started. -/
theorem error_cons (e : ParseError) (t : Token) {rest : List Token} :
    EndsAlike (α := α) endLine ts (Outcome.error e (t :: rest))
      (Outcome.error e (t :: rest ++ [⟨.eof, endLine⟩])) :=
  .error fun hnil => absurd hnil (List.cons_ne_nil t rest)

theorem map (h : EndsAlike endLine ts o o') (f : α → β) :
    EndsAlike endLine ts (o.map f) (o'.map f) := by
  cases h with
  | ok hused => exact .ok hused
  | error hrest => exact .error hrest
  | unassigned => exact .unassigned

/-- Behind tokens that do not end inside the head of a declaration. -/
theorem append {used : List Token} (h : EndsAlike endLine ts o o') (hused : openHead used = .none) :
    EndsAlike endLine (used ++ ts) o o' := by
  cases h with
  | ok hused' =>
      rw [← List.append_assoc]
      exact .ok ((openHead_append hused _).trans hused')
  | error hrest =>
      refine .error fun hnil => ?_
      rw [openHead_append hused]
      exact hrest hnil
  | unassigned =>
      rw [← List.append_assoc]
      exact .unassigned

theorem cons {t : Token} (h : EndsAlike endLine ts o o') (ht : t.kind ≠ .keyword .var) :
    EndsAlike endLine (t :: ts) o o' := by
  have hused : openHead [t] = .none := Head.after_none ht
  exact h.append hused

theorem bind (h : EndsAlike endLine ts o o') {next : α → List Token → Outcome β}
    (hn : ∀ a mid, o = Outcome.ok a mid →
      EndsAlike endLine mid (next a mid) (next a (mid ++ [⟨.eof, endLine⟩]))) :
    EndsAlike endLine ts (o.bind next) (o'.bind next) := by
  cases h with
  | ok hused => exact (hn _ _ rfl).append hused
  | error hrest => exact .error hrest
  | unassigned => exact .unassigned

end EndsAlike

end Outcome

open Outcome

namespace Rule

variable {α : Type} {endLine : Nat}

/-- A rule takes the end of the tokens for an `eof`. -/
def EndsAlike (endLine : Nat) (rule : Rule α) : Prop :=
  ∀ ts, Outcome.EndsAlike endLine ts (rule.run ts) (rule.run (ts ++ [⟨.eof, endLine⟩]))

/-- What holds of the first token and of an `eof` holds of the first token in front of an `eof`. -/
theorem forall_head?_append {p : Token → Prop} {ts : List Token} (h : ∀ t ∈ ts.head?, p t)
    (heof : p ⟨.eof, endLine⟩) : ∀ t ∈ (ts ++ [(⟨.eof, endLine⟩ : Token)]).head?, p t := by
  intro t ht
  cases ts with
  | nil =>
      obtain rfl : (⟨.eof, endLine⟩ : Token) = t := by simpa using ht
      exact heof
  | cons u ts => exact h t ht

section Chain

variable {level : Level} {operand : Rule Expr}

theorem chainFrom_endsAlike (ho : operand.EndsAlike endLine) (left : Expr) (ts : List Token) :
    Outcome.EndsAlike endLine ts (chainFrom level operand left ts)
      (chainFrom level operand left (ts ++ [⟨.eof, endLine⟩])) := by
  induction left, ts using chain_induction level operand with
  | stop left ts hne =>
      rw [chainFrom_of_no_operator hne, chainFrom_of_no_operator (forall_head?_append hne nofun)]
      exact .ok_unused left ts
  | operator left t op ts hop hl ih =>
      have hvar : t.kind ≠ .keyword .var := by
        intro hk
        rw [hk] at hop
        cases hop
      rw [List.cons_append, chainFrom_cons hop hl, chainFrom_cons hop hl]
      exact ((ho ts).bind ih).cons hvar

theorem EndsAlike.chain (level : Level) (ho : operand.EndsAlike endLine) :
    (Rule.chain level operand).EndsAlike endLine :=
  fun ts => (ho ts).bind fun left mid _ => chainFrom_endsAlike ho left mid

end Chain

section Arguments

variable {argument : Rule Expr}

theorem argumentsFrom_endsAlike (ha : argument.EndsAlike endLine) (ts : List Token) :
    Outcome.EndsAlike endLine ts (argumentsFrom endLine argument ts)
      (argumentsFrom endLine argument (ts ++ [⟨.eof, endLine⟩])) := by
  induction ts using arguments_induction argument with
  | step ts ih =>
      rw [argumentsFrom_eq_bind, argumentsFrom_eq_bind]
      refine (ha ts).bind fun a mid hmid => ?_
      cases mid with
      | nil => exact .error_unused _ []
      | cons t rest =>
          simp only [argumentsAfter, List.cons_append]
          split
          · next hk => exact ((ih a t rest hmid).map (a :: ·)).cons (by simp [hk])
          · split
            · next hk => exact (Outcome.EndsAlike.ok_unused [a] rest).cons (by simp [hk])
            · exact .error_unused _ (t :: rest)

theorem arguments_endsAlike (ha : argument.EndsAlike endLine) (ts : List Token) :
    Outcome.EndsAlike endLine ts (arguments endLine argument ts)
      (arguments endLine argument (ts ++ [⟨.eof, endLine⟩])) := by
  cases ts with
  | nil => exact argumentsFrom_endsAlike ha []
  | cons t ts =>
      simp only [arguments, List.cons_append]
      split
      · next hk => exact (Outcome.EndsAlike.ok_unused [] ts).cons (by simp [hk])
      · exact argumentsFrom_endsAlike ha (t :: ts)

end Arguments

theorem closing_endsAlike {kind : Token.Kind} {unclosed : Token.Kind → Nat → ParseError}
    (heof : kind ≠ .eof) (hvar : kind ≠ .keyword .var) (a : α) (ts : List Token) :
    Outcome.EndsAlike endLine ts (closing kind unclosed endLine a ts)
      (closing kind unclosed endLine a (ts ++ [⟨.eof, endLine⟩])) := by
  cases ts with
  | nil =>
      simp only [closing, List.nil_append, heof.symm, ↓reduceIte]
      exact .error_unused _ []
  | cons t ts =>
      simp only [closing, List.cons_append]
      split
      · next hk => exact (Outcome.EndsAlike.ok_unused a ts).cons (hk ▸ hvar)
      · exact .error_unused _ (t :: ts)

theorem statements_endsAlike {statement : Rule Statement} (hs : statement.EndsAlike endLine)
    (ts : List Token) :
    Outcome.EndsAlike endLine ts (statements statement ts)
      (statements statement (ts ++ [⟨.eof, endLine⟩])) := by
  induction ts using statements_induction statement with
  | stop ts hend =>
      rw [statements_of_ends hend,
        statements_of_ends (forall_head?_append (p := (endsStatements ·.kind)) hend rfl)]
      exact .ok_unused [] ts
  | more t ts hk ih =>
      rw [List.cons_append, statements_cons hk, statements_cons hk]
      exact (hs (t :: ts)).bind fun s mid hmid => (ih s mid hmid).map (s :: ·)

end Rule

namespace Grammar

/-- The rules of a grammar take the end of the tokens for an `eof`. -/
structure EndsAlike (endLine : Nat) (g : Grammar) : Prop where
  factor : g.factor.EndsAlike endLine
  assignment : g.assignment.EndsAlike endLine
  statement : g.statement.EndsAlike endLine

variable {α : Type} {g : Grammar} {endLine : Nat} {inner : Option Grammar} {ts : List Token}

theorem nested_endsAlike {body : Grammar → List Token → Outcome α}
    (hi : ∀ g ∈ inner, g.EndsAlike endLine) (line : Nat)
    (hb : ∀ {g}, g.EndsAlike endLine →
      Outcome.EndsAlike endLine ts (body g ts) (body g (ts ++ [⟨.eof, endLine⟩]))) :
    Outcome.EndsAlike endLine ts (nested inner line body ts)
      (nested inner line body (ts ++ [⟨.eof, endLine⟩])) := by
  cases inner with
  | none => exact .error_unused _ ts
  | some g => exact hb (hi g rfl)

theorem group_endsAlike (h : g.EndsAlike endLine) (ts : List Token) :
    Outcome.EndsAlike endLine ts (group endLine g ts)
      (group endLine g (ts ++ [⟨.eof, endLine⟩])) := by
  rw [group_eq_bind, group_eq_bind]
  exact (h.assignment ts).bind fun e mid _ =>
    Rule.closing_endsAlike (by decide) (by decide) _ mid

theorem braced_endsAlike {statement : Rule Statement} (h : statement.EndsAlike endLine)
    (ts : List Token) :
    Outcome.EndsAlike endLine ts (braced endLine statement ts)
      (braced endLine statement (ts ++ [⟨.eof, endLine⟩])) := by
  rw [braced_eq_bind, braced_eq_bind]
  exact (Rule.statements_endsAlike h ts).bind fun body mid _ =>
    Rule.closing_endsAlike (by decide) (by decide) _ mid

theorem nameOrCall_endsAlike (hi : ∀ g ∈ inner, g.EndsAlike endLine) (line : Nat) (name : String)
    (ts : List Token) :
    Outcome.EndsAlike endLine ts (nameOrCall endLine inner line name ts)
      (nameOrCall endLine inner line name (ts ++ [⟨.eof, endLine⟩])) := by
  cases ts with
  | nil => exact .ok_unused _ []
  | cons t ts =>
      simp only [nameOrCall, List.cons_append]
      split
      · next hk =>
        refine ((nested_endsAlike hi line fun h => ?_).map (Expr.call line name)).cons (by simp [hk])
        exact Rule.arguments_endsAlike h.assignment ts
      · exact .ok_unused _ (t :: ts)

theorem factorRule_endsAlike (hi : ∀ g ∈ inner, g.EndsAlike endLine) :
    (factorRule endLine inner).EndsAlike endLine := by
  intro ts
  change Outcome.EndsAlike _ _ (readFactor endLine inner ts) (readFactor endLine inner _)
  cases ts with
  | nil => exact .error_unused _ []
  | cons t ts =>
      simp only [readFactor, List.cons_append]
      split
      case h_1 hk | h_2 hk =>
        exact ((nested_endsAlike hi t.line fun h => h.factor ts).map _).cons (by simp [hk])
      case h_3 hk | h_4 hk => exact (Outcome.EndsAlike.ok_unused _ ts).cons (by simp [hk])
      case h_5 name hk => exact (nameOrCall_endsAlike hi t.line name ts).cons (by simp [hk])
      case h_6 hk =>
        exact (nested_endsAlike hi t.line fun h => group_endsAlike h ts).cons (by simp [hk])
      case h_7 | h_8 | h_9 => exact .error_unused _ (t :: ts)

theorem logical_endsAlike {factor : Rule Expr} (hf : factor.EndsAlike endLine) :
    (logical factor).EndsAlike endLine :=
  (((hf.chain .multiplicative).chain .additive).chain .comparison).chain .logical

theorem assignmentRule_endsAlike (hi : ∀ g ∈ inner, g.EndsAlike endLine) :
    (assignmentRule endLine inner).EndsAlike endLine := by
  intro ts
  change Outcome.EndsAlike _ _ (readAssignment inner _ ts) (readAssignment inner _ _)
  by_cases htarget : HasTarget ts
  · obtain ⟨name, line, line', mid, rfl⟩ := htarget
    exact (((nested_endsAlike hi line fun h => h.assignment mid).map (Expr.assign line name)).cons
      (t := ⟨.assign, line'⟩) (by simp)).cons (by simp)
  · have htarget' : ¬ HasTarget (ts ++ [⟨.eof, endLine⟩]) := by
      have h := htarget
      rw [← List.append_nil ts] at h
      refine not_hasTarget_append h (fun _ t ht name => ?_) fun _ _ _ _ u hu hk => ?_
      · obtain rfl : (⟨.eof, endLine⟩ : Token) = t := by simpa using ht
        simp
      · obtain rfl : (⟨.eof, endLine⟩ : Token) = u := by simpa using hu
        cases hk
    rw [readAssignment_of_not_hasTarget htarget, readAssignment_of_not_hasTarget htarget']
    exact logical_endsAlike (factorRule_endsAlike hi) ts

/-- Behind the name of a declaration an `eof` is blamed, but not the end of the tokens. -/
theorem readDeclaration_endsAlike {assignment : Rule Expr} (ha : assignment.EndsAlike endLine)
    (line : Nat) (ts : List Token) :
    Outcome.EndsAlike endLine (⟨.keyword .var, line⟩ :: ts) (readDeclaration assignment line ts)
      (readDeclaration assignment line (ts ++ [⟨.eof, endLine⟩])) := by
  cases ts with
  | nil => exact .error fun _ name l h => Token.Head.noConfusion h
  | cons t ts =>
      by_cases hname : ∃ name, t.kind = .identifier name
      · obtain ⟨kind, line'⟩ := t
        obtain ⟨name, rfl : kind = _⟩ := hname
        cases ts with
        | nil => exact @Outcome.EndsAlike.unassigned _ endLine [] name line line'
        | cons t ts =>
            simp only [readDeclaration, List.cons_append]
            split
            · next hk =>
              have hused : openHead [⟨.keyword .var, line⟩, ⟨.identifier name, line'⟩, t] = .none := by
                obtain ⟨kind, line''⟩ := t
                obtain rfl : kind = .assign := hk
                rfl
              exact ((ha ts).map (Statement.declare line name)).append hused
            · exact .error_cons _ _
      · have hne : ∀ name, t.kind ≠ .identifier name := fun name h => hname ⟨name, h⟩
        rw [List.cons_append, readDeclaration_of_ne hne, readDeclaration_of_ne hne]
        exact .error_cons _ _

theorem statementRule_endsAlike (hi : ∀ g ∈ inner, g.EndsAlike endLine) :
    (statementRule endLine inner).EndsAlike endLine := by
  intro ts
  have ha : (assignmentRule endLine inner).EndsAlike endLine := assignmentRule_endsAlike hi
  change Outcome.EndsAlike _ _ (readStatement endLine inner _ ts) (readStatement endLine inner _ _)
  cases ts with
  | nil => exact (ha []).map Statement.expression
  | cons t ts =>
      simp only [readStatement, List.cons_append]
      split
      · next hk =>
        obtain ⟨kind, line⟩ := t
        obtain rfl : kind = _ := hk
        exact readDeclaration_endsAlike ha line ts
      · next hk =>
        refine ((nested_endsAlike hi t.line fun h => ?_).map (Statement.block t.line)).cons
          (by simp [hk])
        exact braced_endsAlike h.statement ts
      · exact (ha (t :: ts)).map Statement.expression

theorem next_endsAlike (hi : ∀ g ∈ inner, g.EndsAlike endLine) :
    (next endLine inner).EndsAlike endLine :=
  ⟨factorRule_endsAlike hi, assignmentRule_endsAlike hi, statementRule_endsAlike hi⟩

theorem withRoom_endsAlike (endLine room : Nat) : (withRoom endLine room).EndsAlike endLine := by
  induction room with
  | zero => exact next_endsAlike nofun
  | succ room ih =>
      refine next_endsAlike fun g hg => ?_
      obtain rfl := Option.some.inj hg
      exact ih

end Grammar

theorem Production.read_endsAlike {α : Type} (p : Production α) (endLine room : Nat)
    (ts : List Token) :
    EndsAlike endLine ts (p.read endLine room ts) (p.read endLine room (ts ++ [⟨.eof, endLine⟩])) := by
  have h := Grammar.withRoom_endsAlike endLine room
  have hm := h.factor.chain .multiplicative
  have ha := hm.chain .additive
  have hc := ha.chain .comparison
  have hline : Grammar.lineAt endLine (ts ++ [⟨.eof, endLine⟩]) = Grammar.lineAt endLine ts := by
    cases ts <;> rfl
  cases p with
  | block =>
      simp only [read, readWith, hline]
      exact (Rule.statements_endsAlike h.statement ts).map _
  | braced line => exact (Grammar.braced_endsAlike h.statement ts).map _
  | statement => exact h.statement ts
  | assignment => exact h.assignment ts
  | logical => exact hc.chain .logical ts
  | comparison => exact hc ts
  | additive => exact ha ts
  | multiplicative => exact hm ts
  | factor => exact h.factor ts

/-- Reading a program comes to the end of the tokens right behind the name of a declaration, whose `var`
is on the given line. -/
structure EndsAtName (ts : List Token) (name : String) (line : Nat) : Prop where
  exists_init : ∃ init line', ts = init ++ [⟨.keyword .var, line⟩, ⟨.identifier name, line'⟩]
  position_eq : ((Cursor.start ts).read .block).2.position = ts.length

/-- The end of the tokens is reached if nothing is left of them. -/
theorem endsAtName_iff {ts : List Token} {name : String} {line : Nat} :
    EndsAtName ts name line ↔
      (∃ init line', ts = init ++ [⟨.keyword .var, line⟩, ⟨.identifier name, line'⟩]) ∧
        (Production.block.read (Cursor.endLine ts) nestingLimit ts).rest = [] := by
  constructor
  · rintro ⟨hinit, hposition⟩
    refine ⟨hinit, ?_⟩
    have hlength : ts.length -
        (Production.block.read (Cursor.endLine ts) nestingLimit ts).rest.length = ts.length := hposition
    obtain ⟨init, line', hts⟩ := hinit
    have hpos := congrArg List.length hts
    rw [List.length_append, List.length_cons, List.length_cons] at hpos
    exact List.eq_nil_of_length_eq_zero (by omega)
  · rintro ⟨hinit, hrest⟩
    refine ⟨hinit, ?_⟩
    change ts.length - (Production.block.read (Cursor.endLine ts) nestingLimit ts).rest.length = _
    rw [hrest]
    rfl

/-- Tokens that just end are the same program as with an `eof` on the line of the last one, or are refused
for the same reason. Only where they end behind the name of a declaration the two differ: an `eof` is
blamed for standing where an `=` should, and the end of the tokens is no more than unexpected. -/
theorem parse_append_eof {ts : List Token} {last : Token} (hlast : last ∈ ts.getLast?)
    (heof : ∀ t ∈ ts, t.kind ≠ .eof) :
    let ts' := ts ++ [⟨.eof, last.line⟩]
    (∀ name line, EndsAtName ts name line →
      parse ts = .error (.unexpectedEnd line) ∧
        parse ts' = .error (.expectedAssign name .eof line)) ∧
    ((∀ name line, ¬ EndsAtName ts name line) → parse ts' = parse ts) := by
  intro ts'
  have hline : Cursor.endLine ts = last.line := by
    rw [Cursor.endLine, Option.mem_def.1 hlast]
  have hline' : Cursor.endLine ts' = last.line := by
    rw [Cursor.endLine, List.getLast?_concat]
  have hread := Production.block.read_endsAlike last.line nestingLimit ts
  simp only [endsAtName_iff, parse, hline, hline']
  generalize Production.block.read last.line nestingLimit ts = o at hread
  generalize Production.block.read last.line nestingLimit ts' = o' at hread
  cases hread with
  | @ok program used rest hused =>
      refine ⟨?_, fun _ => ?_⟩
      · -- A program that is read to its end does not end inside the head of a declaration.
        rintro name line ⟨⟨init, line', hts⟩, rfl : rest = []⟩
        rw [← List.append_nil used, hts, openHead_name] at hused
        cases hused
      · cases rest with
        | nil => rfl
        | cons t rest =>
            have ht : t.kind ≠ .eof := heof t (by simp)
            simp [ht]
  | error hrest =>
      refine ⟨?_, fun _ => rfl⟩
      rintro name line ⟨⟨init, line', hts⟩, hnil⟩
      exact absurd (hts ▸ openHead_name init name line line') (hrest hnil name line)
  | @unassigned init name line line' =>
      refine ⟨?_, fun hname => absurd ⟨⟨init, line', rfl⟩, rfl⟩ (hname name line)⟩
      rintro x l ⟨⟨init', l', hts⟩, -⟩
      have hopen := openHead_name init name line line'
      rw [hts, openHead_name] at hopen
      cases hopen
      exact ⟨rfl, rfl⟩

/-- A declaration in a block that stops behind its name, and one that stops behind its `=`. -/
theorem parse_append_eof_name :
    let ts : List Token := [⟨.leftBrace, 1⟩, ⟨.keyword .var, 2⟩, ⟨.identifier "x", 3⟩]
    let us : List Token := ts ++ [⟨.assign, 4⟩]
    parse ts = .error (.unexpectedEnd 2) ∧
      parse (ts ++ [⟨.eof, 3⟩]) = .error (.expectedAssign "x" .eof 2) ∧
      parse (us ++ [⟨.eof, 4⟩]) = parse us := by
  intro ts us
  have hlast : (⟨.identifier "x", 3⟩ : Token) ∈ ts.getLast? := rfl
  have hlast' : (⟨.assign, 4⟩ : Token) ∈ us.getLast? := rfl
  have hname : EndsAtName ts "x" 2 := ⟨⟨[⟨.leftBrace, 1⟩], 3, rfl⟩, by with_unfolding_all rfl⟩
  have hname' : ∀ name line, ¬ EndsAtName us name line := by
    rintro name line ⟨⟨init, line', h⟩, -⟩
    have hlast := congrArg List.getLast? h
    simp [us, ts] at hlast
  obtain ⟨hparse, hparse'⟩ := (parse_append_eof hlast (by decide)).1 "x" 2 hname
  exact ⟨hparse, hparse', (parse_append_eof hlast' (by decide)).2 hname'⟩

end Abacus
