import Abacus.Proofs.Syntax.Moves

/-!
The moves of a cursor come to what the grammar gives. A turn of a loop uses a token or is the last one, so a
loop ends before its turns run out, and it has then done what the recursion of the grammar does. A rule is
under way inside another only in a level that was opened for it, so no more of them are than there is room
for. That leaves one statement for each rule.
-/
namespace Abacus

namespace Outcome

variable {α β γ : Type}

@[simp] theorem map_id (o : Outcome α) : (o.map fun a => a) = o := by
  cases o <;> rfl

theorem bind_map (o : Outcome α) (f : α → β) (next : β → List Token → Outcome γ) :
    (o.map f).bind next = o.bind fun a => next (f a) := by
  cases o <;> rfl

@[simp] theorem bind_ok (o : Outcome α) : o.bind .ok = o := by
  cases o <;> rfl

theorem ok_bind (a : α) (rest : List Token) (next : α → List Token → Outcome β) :
    (ok a rest).bind next = next a rest :=
  rfl

theorem bind_bind (o : Outcome α) (next : α → List Token → Outcome β)
    (next' : β → List Token → Outcome γ) :
    (o.bind next).bind next' = o.bind fun a rest => (next a rest).bind next' := by
  cases o <;> rfl

theorem map_map (o : Outcome α) (f : α → β) (g : β → γ) :
    (o.map f).map g = o.map fun a => g (f a) := by
  cases o <;> rfl

end Outcome

namespace Moves

variable {tokens ts : List Token} {depth turns : Nat}

section Chain

variable {level : Level} {operand : Moves Expr} {rule : Rule Expr}

/-- What one turn of a chain comes to: an operator of the level leads to a further one. -/
def chainStep (level : Level) (rule : Rule Expr) (left : Expr) : List Token → Outcome (Expr ⊕ Expr)
  | [] => .ok (.inr left) []
  | t :: rest =>
    match t.kind.binOp? with
    | none => .ok (.inr left) (t :: rest)
    | some op =>
      if op.level = level then (rule.run rest).map fun right => .inl (.binary t.line op left right)
      else .ok (.inr left) (t :: rest)

theorem chainFrom_eq_step (left : Expr) (ts : List Token) :
    Rule.chainFrom level rule left ts =
      (chainStep level rule left ts).bind (Sum.elim (Rule.chainFrom level rule) .ok) := by
  cases ts with
  | nil => exact Rule.chainFrom_of_no_operator nofun
  | cons t ts =>
      cases hop : t.kind.binOp? with
      | none =>
          simp only [chainStep, hop]
          exact Rule.chainFrom_of_no_operator (by simp [hop])
      | some op =>
          simp only [chainStep, hop]
          split
          · next hl =>
            rw [Rule.chainFrom_cons hop hl, Outcome.bind_map]
            rfl
          · next hl => exact Rule.chainFrom_of_no_operator (by simpa [hop] using hl)

theorem length_lt_of_chainStep (left left' : Expr) (ts mid : List Token)
    (h : chainStep level rule left ts = .ok (.inl left') mid) : mid.length < ts.length := by
  cases ts with
  | nil => cases h
  | cons t ts =>
      simp only [chainStep] at h
      split at h
      · cases h
      · split at h
        · obtain ⟨right, hr, -⟩ := Outcome.map_eq_ok_iff.1 h
          exact Nat.lt_succ_of_lt (rule.progress hr)
        · cases h

theorem chainTurn_makes (ho : operand.Follows tokens depth turns rule.run) (left : Expr)
    (ts : List Token) (hts : Ahead tokens turns ts) :
    (chainTurn level operand left).Makes tokens depth ts (chainStep level rule left ts) := by
  refine .peek hts.suffix ?_
  cases ts with
  | nil => exact .pure _ []
  | cons t ts =>
      simp only [List.head?_cons, chainStep]
      cases t.kind.binOp? with
      | none => exact .pure _ (t :: ts)
      | some op =>
          simp only
          split
          · exact .advance hts.suffix ((ho ts hts.tail).map _)
          · exact .pure _ (t :: ts)

theorem Follows.chain (level : Level) (ho : operand.Follows tokens depth turns rule.run) :
    (Moves.chain turns level operand).Follows tokens depth turns (Rule.chain level rule).run := by
  intro ts hts
  refine (ho ts hts).bind fun left mid _ hsuffix => ?_
  have hmid := hts.of_suffix hsuffix
  exact .loop (chainTurn_makes ho) length_lt_of_chainStep chainFrom_eq_step left hmid hmid.length_lt

end Chain

section Arguments

variable {argument : Moves Expr} {rule : Rule Expr} {endLine : Nat}

/-- What one turn of an argument list comes to: a comma leads to a further one. -/
def argumentsStep (endLine : Nat) (rule : Rule Expr) (as : List Expr) (ts : List Token) :
    Outcome (List Expr ⊕ List Expr) :=
  (rule.run ts).bind fun a rest =>
    match rest with
    | [] => .error (.unclosedParen .eof endLine) []
    | t :: rest =>
      if t.kind = .comma then .ok (.inl (as ++ [a])) rest
      else if t.kind = .rightParen then .ok (.inr (as ++ [a])) rest
      else .error (.unclosedParen t.kind t.line) (t :: rest)

theorem argumentsFrom_eq_step (as : List Expr) (ts : List Token) :
    (Rule.argumentsFrom endLine rule ts).map (as ++ ·) =
      (argumentsStep endLine rule as ts).bind
        (Sum.elim (fun as mid => (Rule.argumentsFrom endLine rule mid).map (as ++ ·)) .ok) := by
  rw [Rule.argumentsFrom_eq_bind, argumentsStep]
  cases rule.run ts with
  | error e mid => rfl
  | ok a mid =>
      cases mid with
      | nil => rfl
      | cons t rest =>
          simp only [Outcome.bind, Rule.argumentsAfter]
          split
          · simp [Outcome.map_map]
          · split <;> rfl

theorem length_lt_of_argumentsStep (as as' : List Expr) (ts mid : List Token)
    (h : argumentsStep endLine rule as ts = .ok (.inl as') mid) : mid.length < ts.length := by
  obtain ⟨a, rest, hrun, hrest⟩ := Outcome.bind_eq_ok_iff.1 h
  have := rule.progress hrun
  split at hrest
  · cases hrest
  · split at hrest
    · obtain ⟨-, rfl⟩ := Outcome.ok.inj hrest
      simp only [List.length_cons] at this
      omega
    · split at hrest <;> cases hrest

theorem argumentsTurn_makes (ha : argument.Follows tokens depth turns rule.run) (as : List Expr)
    (ts : List Token) (hts : Ahead tokens turns ts) :
    (argumentsTurn argument as).Makes tokens depth ts
      (argumentsStep (Cursor.endLine tokens) rule as ts) := by
  refine (ha ts hts).bind fun a mid _ hsuffix => ?_
  have hmid := hts.of_suffix hsuffix
  refine .peek hmid.suffix ?_
  cases mid with
  | nil => exact .line hmid.suffix (.throw _ [])
  | cons t rest =>
      simp only [List.head?_cons]
      split
      · exact .advance hmid.suffix (.pure _ rest)
      · split
        · exact .advance hmid.suffix (.pure _ rest)
        · exact .throw _ (t :: rest)

theorem arguments_follows (ha : argument.Follows tokens depth turns rule.run) :
    (arguments turns argument).Follows tokens depth turns
      (Rule.arguments (Cursor.endLine tokens) rule) := by
  intro ts hts
  refine .peek hts.suffix ?_
  by_cases hclose : ∃ t ∈ ts.head?, t.kind = .rightParen
  · obtain ⟨t, ht, hk⟩ := hclose
    obtain ⟨ts, rfl⟩ := List.head?_eq_some_iff.1 ht
    simp only [List.head?_cons, Option.any_some, Rule.arguments, hk, decide_true, ↓reduceIte]
    exact .advance hts.suffix (.pure [] ts)
  · have hne : ∀ t ∈ ts.head?, t.kind ≠ .rightParen := fun t ht hk => hclose ⟨t, ht, hk⟩
    have hany : ts.head?.any (·.kind = .rightParen) = false := by
      simpa [Option.any_eq_false] using hne
    rw [Rule.arguments_of_ne hne, hany]
    have hloop := Makes.loop (argumentsTurn_makes ha) length_lt_of_argumentsStep
      argumentsFrom_eq_step [] hts hts.length_lt
    simpa using hloop

end Arguments

section Statements

variable {statement : Moves Statement} {rule : Rule Statement}
  {stop : List Statement → List Token → Outcome (List Statement)}

/-- What one turn of a list of statements comes to: where statements end there is something left to do, and
anywhere else a statement leads to a further turn. -/
def statementsStep (stop : List Statement → List Token → Outcome (List Statement))
    (rule : Rule Statement) (body : List Statement) :
    List Token → Outcome (List Statement ⊕ List Statement)
  | [] => (stop body []).map .inr
  | t :: ts =>
    if Rule.endsStatements t.kind then (stop body (t :: ts)).map .inr
    else (rule.run (t :: ts)).map fun s => .inl (body ++ [s])

theorem statements_eq_step (body : List Statement) (ts : List Token) :
    ((Rule.statements rule ts).bind fun more => stop (body ++ more)) =
      (statementsStep stop rule body ts).bind
        (Sum.elim (fun body mid => (Rule.statements rule mid).bind fun more => stop (body ++ more))
          .ok) := by
  cases ts with
  | nil => simp [Rule.statements, statementsStep, Outcome.bind_map, Outcome.ok_bind]
  | cons t ts =>
      simp only [statementsStep]
      split
      · next hend => simp [Rule.statements, hend, Outcome.bind_map, Outcome.ok_bind]
      · next hend =>
        rw [Rule.statements_cons (eq_false_of_ne_true hend), Outcome.bind_bind, Outcome.bind_map]
        simp [Outcome.bind_map]

theorem length_lt_of_statementsStep (body body' : List Statement) (ts mid : List Token)
    (h : statementsStep stop rule body ts = .ok (.inl body') mid) : mid.length < ts.length := by
  cases ts with
  | nil =>
      obtain ⟨_, -, hbody⟩ := Outcome.map_eq_ok_iff.1 h
      cases hbody
  | cons t ts =>
      simp only [statementsStep] at h
      split at h
      · obtain ⟨_, -, hbody⟩ := Outcome.map_eq_ok_iff.1 h
        cases hbody
      · obtain ⟨s, hs, -⟩ := Outcome.map_eq_ok_iff.1 h
        exact rule.progress hs

theorem blockTurn_makes (hs : statement.Follows tokens depth turns rule.run) (body : List Statement)
    (ts : List Token) (hts : Ahead tokens turns ts) :
    (blockTurn statement body).Makes tokens depth ts (statementsStep .ok rule body ts) := by
  refine .atEnd hts.suffix ?_
  cases ts with
  | nil => exact .pure _ []
  | cons t ts =>
      simp only [List.head?_cons, Option.all_some, decide_eq_true_eq, statementsStep,
        Rule.endsStatements, Bool.or_eq_true, beq_iff_eq]
      by_cases heof : t.kind = .eof
      · simp only [heof, true_or, ↓reduceIte]
        exact .pure _ (t :: ts)
      · simp only [heof, false_or, ↓reduceIte]
        refine .peek hts.suffix ?_
        simp only [List.head?_cons, Option.any_some, decide_eq_true_eq]
        split
        · exact .pure _ (t :: ts)
        · exact (hs (t :: ts) hts).map _

theorem block_follows (hs : statement.Follows tokens depth turns rule.run) :
    (block turns statement).Follows tokens depth turns fun ts =>
      (Rule.statements rule ts).map (⟨Grammar.lineAt (Cursor.endLine tokens) ts, ·⟩) := by
  intro ts hts
  have hloop := Makes.loop (blockTurn_makes hs) length_lt_of_statementsStep statements_eq_step [] hts
    hts.length_lt
  simp only [List.nil_append, Outcome.bind_ok] at hloop
  exact .line hts.suffix (hloop.map _)

theorem bracedTurn_makes (hs : statement.Follows tokens depth turns rule.run)
    (body : List Statement) (ts : List Token) (hts : Ahead tokens turns ts) :
    (bracedTurn statement body).Makes tokens depth ts
      (statementsStep (Rule.closing .rightBrace .unclosedBrace (Cursor.endLine tokens)) rule body
        ts) := by
  refine .peek hts.suffix ?_
  cases ts with
  | nil => exact .line hts.suffix (.throw _ [])
  | cons t ts =>
      simp only [List.head?_cons, statementsStep, Rule.closing, Rule.endsStatements,
        Bool.or_eq_true, beq_iff_eq]
      by_cases hbrace : t.kind = .rightBrace
      · simp only [hbrace, or_true, ↓reduceIte]
        exact .advance hts.suffix (.pure _ ts)
      · simp only [hbrace, or_false, ↓reduceIte]
        split
        · next heof =>
          rw [heof]
          exact .throw _ (t :: ts)
        · exact (hs (t :: ts) hts).map _

theorem braced_follows (hs : statement.Follows tokens depth turns rule.run) :
    (braced turns statement).Follows tokens depth turns
      (Grammar.braced (Cursor.endLine tokens) rule) := by
  intro ts hts
  rw [Grammar.braced_eq_bind]
  exact .loop (bracedTurn_makes hs) length_lt_of_statementsStep statements_eq_step [] hts
    hts.length_lt

end Statements

section Rules

/-- The moves of all rules come to what the rules of a grammar make of the tokens. -/
structure Rules.Follow (tokens : List Token) (depth turns : Nat) (rules : Rules) (g : Grammar) :
    Prop where
  factor : rules.factor.Follows tokens depth turns g.factor.run
  assignment : rules.assignment.Follows tokens depth turns g.assignment.run
  statement : rules.statement.Follows tokens depth turns g.statement.run

/-- The rules for what is one level further in. Where the limit is reached there need not be any. -/
inductive FollowInside (tokens : List Token) (depth turns : Nat) (rules : Rules) :
    Option Grammar → Prop where
  | none : nestingLimit ≤ depth → FollowInside tokens depth turns rules none
  | some {g : Grammar} : depth < nestingLimit → rules.Follow tokens (depth + 1) turns g →
      FollowInside tokens depth turns rules (some g)

variable {α : Type} {rules : Rules} {inner : Option Grammar}

theorem nested_makes {body : Moves α} {f : Grammar → List Token → Outcome α}
    (hi : FollowInside tokens depth turns rules inner) (line : Nat) (ts : List Token)
    (hbody : ∀ {g}, rules.Follow tokens (depth + 1) turns g →
      body.Makes tokens (depth + 1) ts (f g ts)) :
    (nested line body).Makes tokens depth ts (Grammar.nested inner line f ts) := by
  cases hi with
  | none hle => exact ⟨List.suffix_refl ts, if_pos hle⟩
  | @some g hlt h =>
      obtain ⟨hsuffix, hrun⟩ := hbody h
      let start := Cursor.before tokens depth ts
      let read : Cursor → Except ParseError α × Cursor := fun _ =>
        ((f g ts).result, Cursor.before tokens (depth + 1) (f g ts).rest)
      have hnested : (nested line body).run.run start = .ok (start.nested line read) :=
        run_nested line fun _ => ⟨hrun, Nat.succ_pos depth⟩
      exact ⟨hsuffix, hnested.trans (congrArg Except.ok (Cursor.nested_of_lt hlt))⟩

theorem group_makes {g : Grammar} (h : rules.Follow tokens depth turns g)
    (hts : Ahead tokens turns ts) :
    (group rules).Makes tokens depth ts (Grammar.group (Cursor.endLine tokens) g ts) := by
  rw [Grammar.group_eq_bind]
  refine (h.assignment ts hts).bind fun e mid _ hsuffix => ?_
  have hmid := hts.of_suffix hsuffix
  refine .peek hmid.suffix ?_
  cases mid with
  | nil => exact .line hmid.suffix (.throw _ [])
  | cons t rest =>
      simp only [List.head?_cons, Rule.closing]
      split
      · exact .advance hmid.suffix (.pure _ rest)
      · exact .throw _ (t :: rest)

theorem nameOrCall_makes (hi : FollowInside tokens depth turns rules inner) (line : Nat)
    (name : String) (hts : Ahead tokens turns ts) :
    (nameOrCall turns rules line name).Makes tokens depth ts
      (Grammar.nameOrCall (Cursor.endLine tokens) inner line name ts) := by
  refine .peek hts.suffix ?_
  cases ts with
  | nil => exact .pure _ []
  | cons t ts =>
      simp only [List.head?_cons, Option.any_some, decide_eq_true_eq, Grammar.nameOrCall]
      split
      · exact .advance hts.suffix ((nested_makes hi line ts fun h =>
          arguments_follows h.assignment ts hts.tail).map _)
      · exact .pure _ (t :: ts)

theorem factor_follows (hi : FollowInside tokens depth turns rules inner) :
    (factor turns rules).Follows tokens depth turns
      (Grammar.factorRule (Cursor.endLine tokens) inner).run := by
  intro ts hts
  change (factor turns rules).Makes tokens depth ts
    (Grammar.readFactor (Cursor.endLine tokens) inner ts)
  refine .peek hts.suffix ?_
  cases ts with
  | nil => exact .line hts.suffix (.throw _ [])
  | cons t ts =>
      obtain ⟨kind, l⟩ := t
      cases kind
      case minus | bang =>
        exact .advance hts.suffix ((nested_makes hi l ts fun h => h.factor ts hts.tail).map _)
      case integer | float => exact .advance hts.suffix (.pure _ ts)
      case identifier name => exact .advance hts.suffix (nameOrCall_makes hi l name hts.tail)
      case leftParen =>
        exact .advance hts.suffix (nested_makes hi l ts fun h => group_makes h hts.tail)
      case keyword word => cases word <;> exact .throw _ _
      all_goals exact .throw _ _

theorem logical_follows {factor : Moves Expr} {rule : Rule Expr}
    (hf : factor.Follows tokens depth turns rule.run) :
    (logical turns factor).Follows tokens depth turns (Grammar.logical rule).run :=
  (((hf.chain .multiplicative).chain .additive).chain .comparison).chain .logical

theorem assignment_follows (hi : FollowInside tokens depth turns rules inner)
    {logical : Moves Expr} {rule : Rule Expr} (hl : logical.Follows tokens depth turns rule.run) :
    (assignment rules logical).Follows tokens depth turns (Grammar.readAssignment inner rule) := by
  intro ts hts
  by_cases htarget : Grammar.HasTarget ts
  · obtain ⟨name, l, l', mid, rfl⟩ := htarget
    refine .peek hts.suffix (.advance hts.suffix (.peek hts.tail.suffix ?_))
    exact .advance hts.tail.suffix ((nested_makes hi l mid fun h =>
      h.assignment mid hts.tail.tail).map _)
  · rw [Grammar.readAssignment_of_not_hasTarget htarget]
    refine .peek hts.suffix ?_
    split
    · next name l heq =>
      -- The name is no target, so the cursor comes back to it.
      obtain ⟨ts, rfl⟩ := List.head?_eq_some_iff.1 heq
      refine .lookPast hts.suffix ?_ (hl _ hts)
      rw [Option.any_eq_false]
      rintro ⟨kind, l'⟩ hu
      obtain ⟨mid, rfl⟩ := List.head?_eq_some_iff.1 hu
      refine decide_eq_false fun hk => htarget ⟨name, l, l', mid, ?_⟩
      obtain rfl : kind = .assign := hk
      rfl
    · exact hl ts hts

theorem declaration_makes {assignment : Moves Expr} {rule : Rule Expr}
    (ha : assignment.Follows tokens depth turns rule.run) (line : Nat)
    (hts : Ahead tokens turns ts) :
    (declaration assignment line).Makes tokens depth ts (Grammar.readDeclaration rule line ts) := by
  rw [declaration, declaredName, bind_assoc]
  refine .peek hts.suffix ?_
  cases ts with
  | nil => exact .throw_bind _ _ []
  | cons t ts =>
      obtain ⟨kind, l⟩ := t
      cases kind
      case identifier name =>
        simp only [List.head?_cons]
        rw [bind_assoc]
        refine .advance hts.suffix ?_
        rw [pure_bind]
        refine .peek hts.tail.suffix ?_
        cases ts with
        | nil => exact .throw _ []
        | cons t ts =>
            simp only [List.head?_cons, Grammar.readDeclaration]
            split
            · exact .advance hts.tail.suffix ((ha ts hts.tail.tail).map _)
            · exact .throw _ (t :: ts)
      all_goals exact .throw_bind _ _ _

theorem statement_follows (hi : FollowInside tokens depth turns rules inner)
    {assignment : Moves Expr} {rule : Rule Expr}
    (ha : assignment.Follows tokens depth turns rule.run) :
    (statement turns rules assignment).Follows tokens depth turns
      (Grammar.readStatement (Cursor.endLine tokens) inner rule) := by
  intro ts hts
  refine .peek hts.suffix ?_
  cases ts with
  | nil => exact (ha [] hts).map _
  | cons t ts =>
      obtain ⟨kind, l⟩ := t
      cases kind
      case keyword word =>
        cases word
        case var => exact .advance hts.suffix (declaration_makes ha l hts.tail)
        case cond => exact (ha _ hts).map _
      case leftBrace =>
        exact .advance hts.suffix ((nested_makes hi l ts fun h =>
          braced_follows h.statement ts hts.tail).map _)
      all_goals exact (ha _ hts).map _

theorem Rules.next_follow (hi : FollowInside tokens depth turns rules inner) :
    (Rules.next turns rules).Follow tokens depth turns
      (Grammar.next (Cursor.endLine tokens) inner) := by
  have ha := assignment_follows hi (logical_follows (factor_follows hi))
  exact ⟨factor_follows hi, ha, statement_follows hi ha⟩

/-- As many rules may be under way as levels can still be opened, and one. -/
theorem Rules.within_follow {calls : Nat} (hdepth : depth ≤ nestingLimit)
    (hcalls : nestingLimit - depth < calls) :
    (Rules.within turns calls).Follow tokens depth turns
      (Grammar.withRoom (Cursor.endLine tokens) (nestingLimit - depth)) := by
  induction calls generalizing depth with
  | zero => cases hcalls
  | succ calls ih =>
      -- At the limit no level can be opened, and it does not matter that no further rule can be under way.
      obtain rfl | hlt := Nat.eq_or_lt_of_le hdepth
      · rw [Nat.sub_self]
        exact next_follow (.none (Nat.le_refl _))
      · have hroom : nestingLimit - depth = nestingLimit - (depth + 1) + 1 := by omega
        rw [hroom]
        exact next_follow (.some hlt (ih hlt (by omega)))

end Rules

end Moves

/-- A part of the grammar is read move by move, if the limits are large enough for what is left. -/
theorem Production.moves_follow {α : Type} (p : Production α) {tokens : List Token}
    {depth turns calls : Nat} (hdepth : depth ≤ nestingLimit) (hcalls : nestingLimit - depth < calls) :
    (p.moves turns calls).Follows tokens depth turns
      (p.read (Cursor.endLine tokens) (nestingLimit - depth)) := by
  intro ts hts
  have h : (Moves.Rules.within turns calls).Follow tokens depth turns _ :=
    Moves.Rules.within_follow hdepth hcalls
  have hm := h.factor.chain .multiplicative
  have ha := hm.chain .additive
  have hc := ha.chain .comparison
  cases p with
  | block => exact Moves.block_follows h.statement ts hts
  | braced line => exact (Moves.braced_follows h.statement ts hts).map _
  | statement => exact h.statement ts hts
  | assignment => exact h.assignment ts hts
  | logical => exact hc.chain .logical ts hts
  | comparison => exact hc ts hts
  | additive => exact ha ts hts
  | multiplicative => exact hm ts hts
  | factor => exact h.factor ts hts

end Abacus
