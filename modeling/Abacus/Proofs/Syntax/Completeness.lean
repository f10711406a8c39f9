import Abacus.Proofs.Syntax.Reading

/-!
Completeness of reading: an expression or statement of the grammar that the tokens start with is read
as it is, if it does not open more levels than there is room for and what follows cannot carry it on.
So a tree is read back from its spelling, and no two trees share one. As for soundness, the induction
is on the room; within one room it goes along the left operands of a chain of operators.
-/
namespace Abacus

/-- A token that is no operator and opens no arguments carries nothing on. -/
theorem stops_cons {tight : Nat} {slots : List Slot} {t : Token} {rest : List Token}
    (ho : t.kind.binOp? = none) (hp : t.kind ≠ .leftParen) : Stops tight slots (t :: rest) := by
  refine ⟨fun u hu op hk => ?_, fun _ u hu => ?_⟩
  · obtain rfl : t = u := by simpa using hu
    rw [Token.Kind.binOp?_eq_some_iff.2 hk] at ho
    cases ho
  · obtain rfl : t = u := by simpa using hu
    exact hp

/-- An operator carries nothing on where only tighter ones are taken. -/
theorem stops_operator {slots : List Slot} {t : Token} {op : BinOp} {rest : List Token}
    (hk : t.kind = op.kind) : Stops (op.level.rank + 1) slots (t :: rest) := by
  have hop := Token.Kind.binOp?_eq_some_iff.2 hk
  refine ⟨fun u hu op' hk' => ?_, fun _ u hu hp => ?_⟩
  · obtain rfl : t = u := by simpa using hu
    rw [Token.Kind.binOp?_eq_some_iff.2 hk'] at hop
    obtain rfl := Option.some.inj hop
    exact Nat.lt_succ_self _
  · obtain rfl : t = u := by simpa using hu
    rw [hp] at hop
    cases hop

/-- The tokens `rest` do not start with `=`, which would make a name in front of them a target. -/
def NoTarget (rest : List Token) : Prop :=
  ∀ t ∈ rest.head?, t.kind ≠ .assign

theorem noTarget_cons {t : Token} {rest : List Token} (h : t.kind ≠ .assign) :
    NoTarget (t :: rest) := by
  intro u hu
  obtain rfl : t = u := by simpa using hu
  exact h

namespace Rule

def CompleteAt (tight room : Nat) (rule : Rule Expr) : Prop :=
  ∀ ⦃ts e rest⦄, e.Leads tight room ts rest → Stops tight e.yield rest → rule.run ts = .ok e rest

section Chain

variable {level : Level} {operand : Rule Expr} {left right : Expr} {ts rest : List Token}

theorem chainFrom_of_stops {slots : List Slot} (h : Stops level.rank slots rest) :
    chainFrom level operand left rest = .ok left rest := by
  unfold chainFrom
  split
  · rfl
  · next t rest =>
    split
    · rfl
    · next op hk =>
      split
      · next hl =>
        have := h.operator t rfl op (Token.Kind.binOp?_eq_some_iff.1 hk)
        rw [hl] at this
        exact absurd this (Nat.lt_irrefl _)
      · rfl

theorem chainFrom_operator {t : Token} {op : BinOp} (hk : t.kind = op.kind) (hl : op.level = level)
    (hr : operand.run ts = .ok right rest) :
    chainFrom level operand left (t :: ts) =
      chainFrom level operand (.binary t.line op left right) rest := by
  rw [chainFrom]
  simp only [Token.Kind.binOp?_eq_some_iff.2 hk, hl, ↓reduceIte]
  split
  · next he => rw [hr] at he; cases he
  · next he =>
    rw [hr] at he
    obtain ⟨rfl, rfl⟩ := Outcome.ok.inj he
    rfl

/-- A chain goes on with the expression that its tokens start with as its left operand. -/
theorem chain_run_eq {room : Nat} (ho : operand.CompleteAt (level.rank + 1) room) {e : Expr}
    (h : e.Leads level.rank room ts rest) (hs : Stops (level.rank + 1) e.yield rest) :
    (chain level operand).run ts = chainFrom level operand e rest := by
  have tighter : ∀ {e : Expr} {ts rest}, e.Leads level.rank room ts rest →
      Stops (level.rank + 1) e.yield rest → level.rank + 1 ≤ e.tightness →
      (chain level operand).run ts = chainFrom level operand e rest := by
    intro e ts rest h hs ht
    have hrun := ho { h with tight_le := ht } hs
    simp only [chain, hrun, Outcome.bind]
  induction e generalizing ts rest with
  | number _ _ | name _ _ | negate _ _ _ | not _ _ _ | group _ _ | call _ _ _ _ =>
      exact tighter h hs level.rank_lt
  | assign _ _ _ _ => exact absurd h.tight_le (Nat.not_le_of_lt level.rank_pos)
  | binary line op l r ihl _ =>
      by_cases ht : level.rank + 1 ≤ op.level.rank
      · exact tighter h hs ht
      · have hlevel : op.level = level :=
          Level.rank_injective (Nat.le_antisymm (Nat.le_of_not_lt ht) h.tight_le)
        subst hlevel
        obtain ⟨hll, hrl, htl, htr⟩ := h.layered
        obtain ⟨hnl, hnr⟩ := Nat.max_le.1 h.nest_le
        obtain ⟨mid, hl, hrest⟩ := spells_append_iff.1 h.spells
        obtain ⟨t, ts', rfl, ⟨hk, rfl⟩, hr⟩ := spells_cons_iff.1 hrest
        rw [ihl ⟨hl, hll, htl, hnl⟩ (stops_operator hk)]
        exact chainFrom_operator hk rfl (ho ⟨hr, hrl, htr, hnr⟩ ⟨hs.operator, by simpa using hs.call⟩)

theorem CompleteAt.chain (level : Level) {room : Nat} (ho : operand.CompleteAt (level.rank + 1) room) :
    (Rule.chain level operand).CompleteAt level.rank room := by
  intro ts e rest h hs
  have hs' : Stops (level.rank + 1) e.yield rest :=
    ⟨fun t ht op hk => Nat.lt_succ_of_lt (hs.operator t ht op hk), hs.call⟩
  rw [chain_run_eq ho h hs', chainFrom_of_stops hs]

end Chain

/-- Assignments are read wherever no `=` follows. -/
def CompleteForAssignments (room : Nat) (rule : Rule Expr) : Prop :=
  ∀ ⦃ts e rest⦄, e.Leads 0 room ts rest → Stops 0 e.yield rest → NoTarget rest →
    rule.run ts = .ok e rest

section Arguments

variable {endLine room : Nat} {argument : Rule Expr} {ts rest : List Token}

theorem argumentsFrom_eq {a : Expr} {t : Token} (h : argument.run ts = .ok a (t :: rest)) :
    argumentsFrom endLine argument ts =
      if t.kind = .comma then (argumentsFrom endLine argument rest).map (a :: ·)
      else if t.kind = .rightParen then .ok [a] rest
      else .error (.unclosedParen t.kind t.line) (t :: rest) := by
  rw [argumentsFrom]
  split
  · next he => rw [h] at he; cases he
  · next he => rw [h] at he; cases he
  · next he =>
    simp only [h, Outcome.ok.injEq, List.cons.injEq] at he
    obtain ⟨rfl, rfl, rfl⟩ := he
    rfl

theorem argumentsFrom_complete (ha : argument.CompleteForAssignments room) {es : List Expr}
    (hne : es ≠ []) (h : Expr.LeadAll room es ts rest) :
    argumentsFrom endLine argument ts = .ok es rest := by
  induction es generalizing ts with
  | nil => cases hne rfl
  | cons e es ih =>
      obtain ⟨hle, hles⟩ := h.layered
      obtain ⟨hn, hns⟩ := Nat.max_le.1 h.nest_le
      have hspells := h.spells
      by_cases hes : es = []
      · subst hes
        obtain ⟨mid, he, hmid⟩ := spells_append_iff.1 hspells
        obtain ⟨t, mid, rfl, ht, hrest⟩ := spells_cons_iff.1 hmid
        obtain rfl := spells_nil_iff.1 hrest
        have hk : t.kind = .rightParen := ht
        have hrun := ha ⟨he, hle, Nat.zero_le _, hn⟩
          (stops_cons (by rw [hk]; rfl) (by simp [hk])) (noTarget_cons (by simp [hk]))
        rw [argumentsFrom_eq hrun]
        simp [hk]
      · rw [Expr.yieldArguments_cons hes, List.append_assoc] at hspells
        obtain ⟨mid, he, hmid⟩ := spells_append_iff.1 hspells
        obtain ⟨t, mid, rfl, ht, hrest⟩ := spells_cons_iff.1 hmid
        have hk : t.kind = .comma := ht
        have hrun := ha ⟨he, hle, Nat.zero_le _, hn⟩
          (stops_cons (by rw [hk]; rfl) (by simp [hk])) (noTarget_cons (by simp [hk]))
        rw [argumentsFrom_eq hrun, ih hes ⟨hrest, hles, hns⟩]
        simp [hk, Outcome.map]

theorem arguments_complete (ha : argument.CompleteForAssignments room) {es : List Expr}
    (h : Expr.LeadAll room es ts rest) : arguments endLine argument ts = .ok es rest := by
  cases es with
  | nil =>
      obtain ⟨t, mid, rfl, ht, hrest⟩ := spells_cons_iff.1 h.spells
      obtain rfl := spells_nil_iff.1 hrest
      have hk : t.kind = .rightParen := ht
      simp [arguments, hk]
  | cons e es =>
      have hspells : ∃ mid, Spells e.yield ts mid := by
        obtain ⟨_, hargs, _⟩ := spells_append_iff.1 h.spells
        cases es with
        | nil => exact ⟨_, hargs⟩
        | cons =>
            obtain ⟨mid, he, _⟩ := spells_append_iff.1 hargs
            exact ⟨mid, he⟩
      obtain ⟨_, he⟩ := hspells
      obtain ⟨t, mid, rfl, ht⟩ := Expr.starts_of_spells he
      have hk : t.kind ≠ .rightParen := by
        intro hk
        rw [hk] at ht
        cases ht
      simp only [arguments, hk, ↓reduceIte]
      exact argumentsFrom_complete ha (List.cons_ne_nil _ _) h

end Arguments

def CompleteWithin (room : Nat) (rule : Rule Statement) : Prop :=
  ∀ ⦃ts s rest⦄, s.Leads room ts rest → s.StopsAt rest → NoTarget rest →
    rule.run ts = .ok s rest

section Statements

variable {statement : Rule Statement} {ts rest : List Token}

/-- What ends a list of statements carries none of them on. -/
theorem stopsAt_of_ends {s : Statement} (h : ∀ t ∈ rest.head?, endsStatements t.kind) :
    s.StopsAt rest ∧ NoTarget rest := by
  have hend : ∀ t ∈ rest.head?, t.kind = .eof ∨ t.kind = .rightBrace := by
    intro t ht
    simpa [endsStatements] using h t ht
  refine ⟨⟨fun _ t ht op hk => ?_, fun _ t ht hk => ?_⟩, fun t ht hk => ?_⟩
  · obtain he | he := hend t ht <;> rw [he] at hk <;> cases op <;> cases hk
  · obtain he | he := hend t ht <;> rw [he] at hk <;> cases hk
  · obtain he | he := hend t ht <;> rw [he] at hk <;> cases hk

theorem endsStatements_of_starts {kind : Token.Kind} (h : kind.startsStatement) :
    endsStatements kind = false := by
  cases kind <;> first | rfl | cases h

theorem statements_of_ends (h : ∀ t ∈ rest.head?, endsStatements t.kind) :
    statements statement rest = .ok [] rest := by
  cases rest with
  | nil => simp [statements]
  | cons t rest => simp [statements, h t rfl]

theorem statements_eq {s : Statement} {t : Token} (ht : endsStatements t.kind = false)
    (h : statement.run (t :: ts) = .ok s rest) :
    statements statement (t :: ts) = (statements statement rest).map (s :: ·) := by
  rw [statements]
  simp only [ht, Bool.false_eq_true, ↓reduceIte]
  split
  · next he => rw [h] at he; cases he
  · next he =>
    rw [h] at he
    obtain ⟨rfl, rfl⟩ := Outcome.ok.inj he
    rfl

theorem statements_complete {room : Nat} (hs : statement.CompleteWithin room)
    {body : List Statement} (h : Statement.LeadAll room body ts rest)
    (hend : ∀ t ∈ rest.head?, endsStatements t.kind) :
    statements statement ts = .ok body rest := by
  induction body generalizing ts with
  | nil =>
      obtain rfl := spells_nil_iff.1 h.spells
      exact statements_of_ends hend
  | cons s body ih =>
      obtain ⟨hls, hlb⟩ := h.layered
      obtain ⟨hss, hneighbour, hsb⟩ := h.separated
      obtain ⟨hns, hnb⟩ := Nat.max_le.1 h.nest_le
      obtain ⟨mid, hspell, hrest⟩ := spells_append_iff.1 h.spells
      have hstop : s.StopsAt mid ∧ NoTarget mid := by
        cases body with
        | nil =>
            obtain rfl := spells_nil_iff.1 hrest
            exact stopsAt_of_ends hend
        | cons next body =>
            obtain ⟨_, hnext, _⟩ := spells_append_iff.1 hrest
            refine ⟨(Statement.stopsAt_iff_standsApart hnext).2 (hneighbour next rfl), ?_⟩
            obtain ⟨t, mid, rfl, ht⟩ := Statement.starts_of_spells hnext
            apply noTarget_cons
            intro hk
            rw [hk] at ht
            cases ht
      have hrun := hs ⟨hspell, hls, hss, hns⟩ hstop.1 hstop.2
      obtain ⟨t, ts', rfl, ht⟩ := Statement.starts_of_spells hspell
      rw [statements_eq (endsStatements_of_starts ht) hrun, ih ⟨hrest, hlb, hsb, hnb⟩]
      rfl

end Statements

end Rule

namespace Grammar

/-- The rules of a grammar are complete, with room for that many levels. -/
structure Complete (room : Nat) (g : Grammar) : Prop where
  factor : g.factor.CompleteAt 5 room
  assignment : g.assignment.CompleteForAssignments room
  statement : g.statement.CompleteWithin room

variable {endLine room : Nat} {inner : Option Grammar} {ts rest : List Token}

/-- What opens at most `n` levels can be read inside a further one. -/
theorem nested_complete {α : Type} {n line : Nat} {body : Grammar → List Token → Outcome α} {a : α}
    (hi : ∀ r, room = r + 1 → ∃ g ∈ inner, g.Complete r) (hn : n + 1 ≤ room)
    (hb : ∀ g r, n ≤ r → g.Complete r → body g ts = .ok a rest) :
    nested inner line body ts = .ok a rest := by
  cases room with
  | zero => exact absurd hn (Nat.not_succ_le_zero n)
  | succ r =>
      obtain ⟨g, hg, hc⟩ := hi r rfl
      exact nested_eq_ok_iff.2 ⟨g, hg, hb g r (Nat.le_of_succ_le_succ hn) hc⟩

theorem group_complete {g : Grammar} (hg : g.Complete room) {e : Expr} (hl : e.Layered)
    (hn : e.nest ≤ room) (h : Spells (e.yield ++ [.anywhere .rightParen]) ts rest) :
    group endLine g ts = .ok (.group e) rest := by
  obtain ⟨mid, he, hmid⟩ := spells_append_iff.1 h
  obtain ⟨t, mid, rfl, ht, hrest⟩ := spells_cons_iff.1 hmid
  obtain rfl := spells_nil_iff.1 hrest
  have hk : t.kind = .rightParen := ht
  have hrun := hg.assignment ⟨he, hl, Nat.zero_le _, hn⟩
    (stops_cons (by rw [hk]; rfl) (by simp [hk])) (noTarget_cons (by simp [hk]))
  simp [group, hrun, Outcome.bind, hk]

theorem braced_complete {statement : Rule Statement} (hs : statement.CompleteWithin room)
    {body : List Statement} (hl : Statement.LayeredAll body) (hsep : Statement.SeparatedAll body)
    (hn : Statement.nestAll body ≤ room)
    (h : Spells (Statement.yieldAll body ++ [.anywhere .rightBrace]) ts rest) :
    braced endLine statement ts = .ok body rest := by
  obtain ⟨mid, hb, hmid⟩ := spells_append_iff.1 h
  obtain ⟨t, mid, rfl, ht, hrest⟩ := spells_cons_iff.1 hmid
  obtain rfl := spells_nil_iff.1 hrest
  have hk : t.kind = .rightBrace := ht
  have hend : ∀ u ∈ (t :: mid).head?, Rule.endsStatements u.kind := by
    intro u hu
    obtain rfl : t = u := by simpa using hu
    rw [hk]
    rfl
  have hrun := Rule.statements_complete hs ⟨hb, hl, hsep, hn⟩ hend
  simp [braced, hrun, Outcome.bind, hk]

theorem factorRule_complete (hi : ∀ r, room = r + 1 → ∃ g ∈ inner, g.Complete r) :
    (factorRule endLine inner).CompleteAt 5 room := by
  intro ts e rest h hs
  have hspells := h.spells
  change readFactor endLine inner ts = .ok e rest
  cases e with
  | number line value =>
      obtain ⟨t, mid, rfl, ⟨hk | hk, rfl⟩, hrest⟩ := spells_cons_iff.1 hspells
      all_goals
        obtain rfl := spells_nil_iff.1 hrest
        simp [readFactor, hk]
  | name line x =>
      obtain ⟨t, mid, rfl, ⟨hk, rfl⟩, hrest⟩ := spells_cons_iff.1 hspells
      obtain rfl := spells_nil_iff.1 hrest
      simp only [readFactor, hk]
      cases mid with
      | nil => rfl
      | cons u mid => simp [nameOrCall, hs.call rfl u rfl]
  | negate line operand | not line operand =>
      obtain ⟨t, mid, rfl, ⟨hk, rfl⟩, hrest⟩ := spells_cons_iff.1 hspells
      simp only [readFactor, hk]
      refine Outcome.map_eq_ok_iff.2 ⟨operand, ?_, rfl⟩
      exact nested_complete hi h.nest_le fun g r hr hg =>
        hg.factor ⟨hrest, h.layered.1, h.layered.2, hr⟩ ⟨hs.operator, by simpa using hs.call⟩
  | group inner =>
      obtain ⟨t, mid, rfl, ht, hrest⟩ := spells_cons_iff.1 hspells
      have hk : t.kind = .leftParen := ht
      simp only [readFactor, hk]
      exact nested_complete hi h.nest_le fun g r hr hg => group_complete hg h.layered hr hrest
  | call line f arguments =>
      obtain ⟨t, mid, rfl, ⟨hk, rfl⟩, hrest⟩ := spells_cons_iff.1 hspells
      obtain ⟨u, mid, rfl, hu, hargs⟩ := spells_cons_iff.1 hrest
      have hp : u.kind = .leftParen := hu
      simp only [readFactor, hk, nameOrCall, hp, ↓reduceIte]
      refine Outcome.map_eq_ok_iff.2 ⟨arguments, ?_, rfl⟩
      exact nested_complete hi h.nest_le fun g r hr hg =>
        Rule.arguments_complete hg.assignment ⟨hargs, h.layered, hr⟩
  | binary line op left right => exact absurd h.tight_le (Nat.not_le_of_lt op.level.rank_lt)
  | assign line x value => exact absurd h.tight_le (Nat.not_succ_le_zero 4)

theorem logical_complete {factor : Rule Expr} (hf : factor.CompleteAt 5 room) :
    (logical factor).CompleteAt 1 room := by
  have hm : (multiplicative factor).CompleteAt 4 room := .chain .multiplicative hf
  have ha : (additive factor).CompleteAt 3 room := .chain .additive hm
  have hc : (comparison factor).CompleteAt 2 room := .chain .comparison ha
  exact .chain .logical hc

/-- Tokens that start with an expression other than an assignment do not start with a target. The
first of them may be a name, but then an operator, a parenthesis or what follows comes second. -/
theorem not_target_of_leads {e : Expr} (h : e.Leads 1 room ts rest) (hr : NoTarget rest)
    (name : String) (line line' : Nat) (mid : List Token) :
    ts ≠ ⟨.identifier name, line⟩ :: ⟨.assign, line'⟩ :: mid := by
  rintro rfl
  have hspells := h.spells
  induction e generalizing rest with
  | number _ _ =>
      obtain ⟨_, _, he, ⟨hk | hk, _⟩, _⟩ := spells_cons_iff.1 hspells
      all_goals
        obtain ⟨rfl, _⟩ := List.cons.inj he
        cases hk
  | name _ _ =>
      obtain ⟨_, _, he, _, hrest⟩ := spells_cons_iff.1 hspells
      obtain rfl := spells_nil_iff.1 hrest
      obtain ⟨_, rfl⟩ := List.cons.inj he
      exact hr _ rfl rfl
  | negate _ _ _ | not _ _ _ =>
      obtain ⟨_, _, he, ⟨hk, _⟩, _⟩ := spells_cons_iff.1 hspells
      obtain ⟨rfl, _⟩ := List.cons.inj he
      cases hk
  | group _ _ =>
      obtain ⟨_, _, he, hk, _⟩ := spells_cons_iff.1 hspells
      obtain ⟨rfl, _⟩ := List.cons.inj he
      cases hk
  | call _ _ _ _ =>
      obtain ⟨_, _, he, _, hrest⟩ := spells_cons_iff.1 hspells
      obtain ⟨_, rfl⟩ := List.cons.inj he
      obtain ⟨_, _, he, hk, _⟩ := spells_cons_iff.1 hrest
      obtain ⟨rfl, _⟩ := List.cons.inj he
      cases hk
  | binary _ op l r ihl _ =>
      obtain ⟨hll, _, htl, _⟩ := h.layered
      obtain ⟨hnl, _⟩ := Nat.max_le.1 h.nest_le
      obtain ⟨mid', hl, hrest⟩ := spells_append_iff.1 hspells
      obtain ⟨t, mid', rfl, ⟨hk, _⟩, _⟩ := spells_cons_iff.1 hrest
      have hno : NoTarget (t :: mid') := noTarget_cons (by rw [hk]; cases op <;> nofun)
      exact ihl hno ⟨hl, hll, Nat.le_trans op.level.rank_pos htl, hnl⟩ hl
  | assign _ _ _ _ => exact absurd h.tight_le (Nat.not_succ_le_zero 0)

theorem assignmentRule_complete (hi : ∀ r, room = r + 1 → ∃ g ∈ inner, g.Complete r) :
    (assignmentRule endLine inner).CompleteForAssignments room := by
  intro ts e rest h hs hr
  change readAssignment inner (logical (factorRule endLine inner)) ts = .ok e rest
  by_cases ht : 1 ≤ e.tightness
  · have hlead : e.Leads 1 room ts rest := { h with tight_le := ht }
    have hs' : Stops 1 e.yield rest :=
      ⟨fun t ht op hk => absurd (hs.operator t ht op hk) (Nat.not_lt_zero _), hs.call⟩
    unfold readAssignment
    split
    · exact absurd rfl (not_target_of_leads hlead hr _ _ _ _)
    · exact logical_complete (factorRule_complete hi) hlead hs'
  · cases e with
    | assign line x value =>
        obtain ⟨⟨_, _⟩, mid, rfl, ⟨rfl, rfl⟩, hrest⟩ := spells_cons_iff.1 h.spells
        obtain ⟨⟨_, _⟩, mid, rfl, rfl, hvalue⟩ := spells_cons_iff.1 hrest
        refine Outcome.map_eq_ok_iff.2 ⟨value, ?_, rfl⟩
        exact nested_complete hi h.nest_le fun g r hn hg =>
          hg.assignment ⟨hvalue, h.layered, Nat.zero_le _, hn⟩
            ⟨hs.operator, by simpa using hs.call⟩ hr
    | binary line op left right => exact absurd op.level.rank_pos ht
    | number _ _ | name _ _ | negate _ _ | not _ _ | group _ | call _ _ _ =>
        exact absurd (by decide : 1 ≤ 5) ht

theorem statementRule_complete (hi : ∀ r, room = r + 1 → ∃ g ∈ inner, g.Complete r) :
    (statementRule endLine inner).CompleteWithin room := by
  intro ts s rest h hs hr
  have ha : (assignmentRule endLine inner).CompleteForAssignments room := assignmentRule_complete hi
  have hspells := h.spells
  change readStatement endLine inner (assignmentRule endLine inner) ts = .ok s rest
  cases s with
  | declare line x e =>
      obtain ⟨t, _, rfl, ⟨hk, rfl⟩, hrest⟩ := spells_cons_iff.1 hspells
      obtain ⟨⟨_, _⟩, _, rfl, rfl, hrest'⟩ := spells_cons_iff.1 hrest
      obtain ⟨u, mid, rfl, hu, hvalue⟩ := spells_cons_iff.1 hrest'
      have hassign : u.kind = .assign := hu
      simp only [readStatement, hk, readDeclaration, hassign, ↓reduceIte]
      refine Outcome.map_eq_ok_iff.2 ⟨e, ?_, rfl⟩
      exact ha ⟨hvalue, h.layered, Nat.zero_le _, h.nest_le⟩
        ⟨fun t ht op hk => absurd hk (hs.operator rfl t ht op), by simpa using hs.call⟩ hr
  | expression e =>
      have hrun := ha ⟨hspells, h.layered, Nat.zero_le _, h.nest_le⟩
        ⟨fun t ht op hk => absurd hk (hs.operator rfl t ht op), hs.call⟩ hr
      obtain ⟨t, mid, rfl, ht⟩ := Expr.starts_of_spells hspells
      simp only [readStatement]
      split
      · next hk => rw [hk] at ht; cases ht
      · next hk => rw [hk] at ht; cases ht
      · rw [hrun]
        rfl
  | block line body =>
      obtain ⟨t, mid, rfl, ⟨hk, rfl⟩, hrest⟩ := spells_cons_iff.1 hspells
      simp only [readStatement, hk]
      refine Outcome.map_eq_ok_iff.2 ⟨body, ?_, rfl⟩
      exact nested_complete hi h.nest_le fun g r hn hg =>
        braced_complete hg.statement h.layered h.separated hn hrest

theorem next_complete (hi : ∀ r, room = r + 1 → ∃ g ∈ inner, g.Complete r) :
    (next endLine inner).Complete room :=
  ⟨factorRule_complete hi, assignmentRule_complete hi, statementRule_complete hi⟩

theorem withRoom_complete (endLine room : Nat) : (withRoom endLine room).Complete room := by
  induction room with
  | zero => exact next_complete nofun
  | succ room ih =>
      apply next_complete
      rintro r ⟨⟩
      exact ⟨_, rfl, ih⟩

end Grammar

/-- A program of the grammar whose statements can be told apart is read back from every spelling of
it. -/
theorem parse_of_spelledBy {ts : List Token} {b : Block} (hl : b.Layered) (hc : b.Canonical)
    (hs : b.SpelledBy ts) : parse ts = .ok b := by
  obtain ⟨⟨tail, hspells, htail⟩, hline⟩ := hs
  refine parse_eq_ok_iff.2 ⟨hline, tail, htail, ?_⟩
  apply Rule.statements_complete (Grammar.withRoom_complete _ _).statement
  · exact ⟨hspells, hl, hc.separated, hc.nest_le⟩
  · obtain rfl | ⟨line, rfl⟩ := htail
    · simp
    · simp [Rule.endsStatements]

/-- A name before a minus sign needs a block between them, and a left operand needs no
parentheses. -/
theorem parse_of_spelledBy_neighbours :
    let b : Block := ⟨4, [.expression (.binary 2 .sub (.binary 1 .sub (.name 4 "a") (.name 1 "b"))
        (.binary 3 .mul (.number 2 2) (.name 3 "c"))),
      .block 5 [.declare 6 "x" (.assign 6 "y" (.not 7 (.call 7 "f" []))), .expression (.name 8 "x")],
      .expression (.negate 9 (.group (.name 9 "x")))]⟩
    let ts : List Token := [⟨.identifier "a", 4⟩, ⟨.minus, 1⟩, ⟨.identifier "b", 1⟩, ⟨.minus, 2⟩,
      ⟨.float 2, 2⟩, ⟨.star, 3⟩, ⟨.identifier "c", 3⟩, ⟨.leftBrace, 5⟩, ⟨.keyword .var, 6⟩,
      ⟨.identifier "x", 0⟩, ⟨.assign, 6⟩, ⟨.identifier "y", 6⟩, ⟨.assign, 0⟩, ⟨.bang, 7⟩,
      ⟨.identifier "f", 7⟩, ⟨.leftParen, 7⟩, ⟨.rightParen, 8⟩, ⟨.identifier "x", 8⟩,
      ⟨.rightBrace, 9⟩, ⟨.minus, 9⟩, ⟨.leftParen, 9⟩, ⟨.identifier "x", 9⟩, ⟨.rightParen, 9⟩]
    b.Layered ∧ b.Canonical ∧ b.SpelledBy ts ∧ parse ts = .ok b := by
  intro b ts
  have hl : b.Layered := by
    simp [b, Block.Layered, Statement.LayeredAll, Statement.Layered, Expr.Layered, Expr.LayeredAll,
      Expr.tightness, BinOp.level, Level.rank]
  have hc : b.Canonical := by
    refine ⟨by decide, ?_⟩
    simp [b, Statement.SeparatedAll, Statement.Separated, Statement.StandsApart, Statement.yield,
      Expr.yield, startsWith, Slot.kind?, Statement.isBlock]
  have hs : b.SpelledBy ts := by
    refine ⟨⟨[], ?_, .inl rfl⟩, rfl⟩
    simp [b, ts, Block.yield, Statement.yieldAll, Statement.yield, Expr.yield, Expr.yieldArguments,
      spells_cons_cons_iff, spells_nil_iff, Slot.Fits, BinOp.kind]
  exact ⟨hl, hc, hs, parse_of_spelledBy hl hc hs⟩

end Abacus
