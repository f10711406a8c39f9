import Abacus.Proofs.Syntax.LookAhead

/-!
The nesting limit does nothing but limit nesting. With less room a rule reads the same, as long as what
it reads has no more levels than there is room for, and otherwise it fails because of the nesting. As
the left operands of a chain and the arguments before the last are read before it is known how the
reading ends, what matters is that they are no deeper than what they become a part of.
-/
namespace Abacus

namespace Outcome

variable {α β : Type} {nest : α → Nat} {nest' : β → Nat} {room : Nat} {o o' : Outcome α}

/-- What a reading comes to with only so much room: what is read is the same if it is not too deep. In
place of any error there may be one about the nesting. -/
inductive Narrows (nest : α → Nat) (room : Nat) : Outcome α → Outcome α → Prop where
  | ok {a : α} {rest : List Token} : nest a ≤ room → Narrows nest room (ok a rest) (ok a rest)
  | error {e : ParseError} {rest : List Token} : Narrows nest room (error e rest) (error e rest)
  | tooDeep {o : Outcome α} {line : Nat} {rest : List Token} :
      (∀ a mid, o = Outcome.ok a mid → room < nest a) →
      Narrows nest room o (Outcome.error (.nestingTooDeep nestingLimit line) rest)

namespace Narrows

/-- What is made of a result, if there is room for it exactly if there is for the result. -/
theorem map (h : Narrows nest room o o') {f : α → β}
    (hf : ∀ a, nest' (f a) ≤ room ↔ nest a ≤ room) :
    Narrows nest' room (o.map f) (o'.map f) := by
  cases h with
  | ok ha => exact .ok ((hf _).2 ha)
  | error => exact .error
  | tooDeep hdeep =>
      refine .tooDeep fun b mid hb => ?_
      obtain ⟨a, ha, rfl⟩ := map_eq_ok_iff.1 hb
      rw [← Nat.not_le, hf, Nat.not_le]
      exact hdeep a mid ha

/-- One reading after another, if what the first has read becomes part of something no less deep. -/
theorem bind (h : Narrows nest room o o') {next next' : α → List Token → Outcome β}
    (hn : ∀ a mid, o = Outcome.ok a mid → nest a ≤ room →
      Narrows nest' room (next a mid) (next' a mid))
    (hle : ∀ a mid b rest, next a mid = Outcome.ok b rest → nest a ≤ nest' b) :
    Narrows nest' room (o.bind next) (o'.bind next') := by
  cases h with
  | ok ha => exact hn _ _ rfl ha
  | error => exact .error
  | tooDeep hdeep =>
      refine .tooDeep fun b rest hb => ?_
      obtain ⟨a, mid, ha, hb⟩ := bind_eq_ok_iff.1 hb
      exact Nat.lt_of_lt_of_le (hdeep a mid ha) (hle a mid b rest hb)

theorem succ (h : Narrows nest room o o') : Narrows (nest · + 1) (room + 1) o o' := by
  cases h with
  | ok ha => exact .ok (Nat.succ_le_succ ha)
  | error => exact .error
  | tooDeep hdeep => exact .tooDeep fun a mid ha => Nat.succ_lt_succ (hdeep a mid ha)

end Narrows

end Outcome

open Outcome

namespace Rule

variable {α : Type} {room : Nat}

/-- The second rule does with only so much room what the first does. -/
def Narrows (nest : α → Nat) (room : Nat) (rule rule' : Rule α) : Prop :=
  ∀ ts, (rule.run ts).Narrows nest room (rule'.run ts)

section Chain

variable {level : Level} {operand operand' : Rule Expr}

theorem nest_le_of_chainFrom {left e : Expr} {ts rest : List Token}
    (h : chainFrom level operand left ts = .ok e rest) : left.nest ≤ e.nest := by
  fun_induction chainFrom level operand left ts with
  | case1 | case2 | case5 =>
      obtain ⟨rfl, -⟩ := Outcome.ok.inj h
      exact Nat.le_refl _
  | case3 => cases h
  | case4 left t rest' op hop hl right mid hm ih => exact Nat.le_trans (Nat.le_max_left _ _) (ih h)

theorem chainFrom_narrows (ho : operand.Narrows Expr.nest room operand') {left : Expr}
    (hleft : left.nest ≤ room) (ts : List Token) :
    (chainFrom level operand left ts).Narrows Expr.nest room
      (chainFrom level operand' left ts) := by
  induction left, ts using chain_induction level operand with
  | stop left ts hne =>
      rw [chainFrom_of_no_operator hne, chainFrom_of_no_operator hne]
      exact .ok hleft
  | operator left t op ts hop hl ih =>
      rw [chainFrom_cons hop hl, chainFrom_cons hop hl]
      refine (ho ts).bind (fun right mid hr hright => ?_) fun right mid e rest he => ?_
      · exact ih right mid hr (Nat.max_le.2 ⟨hleft, hright⟩)
      · exact Nat.le_trans (Nat.le_max_right _ _) (nest_le_of_chainFrom he)

theorem Narrows.chain (level : Level) (ho : operand.Narrows Expr.nest room operand') :
    (Rule.chain level operand).Narrows Expr.nest room (Rule.chain level operand') :=
  fun ts => (ho ts).bind (fun _ mid _ hleft => chainFrom_narrows ho hleft mid)
    fun _ _ _ _ => nest_le_of_chainFrom

end Chain

section Arguments

variable {endLine : Nat} {argument argument' : Rule Expr}

theorem nest_le_of_argumentsAfter {a : Expr} {as : List Expr} {ts rest : List Token}
    (h : argumentsAfter endLine argument a ts = .ok as rest) : a.nest ≤ Expr.nestAll as := by
  unfold argumentsAfter at h
  split at h
  · cases h
  · split at h
    · obtain ⟨as, -, rfl⟩ := Outcome.map_eq_ok_iff.1 h
      exact Nat.le_max_left _ _
    · split at h
      · obtain ⟨rfl, -⟩ := Outcome.ok.inj h
        exact Nat.le_max_left _ _
      · cases h

theorem argumentsFrom_narrows (ha : argument.Narrows Expr.nest room argument') (ts : List Token) :
    (argumentsFrom endLine argument ts).Narrows Expr.nestAll room
      (argumentsFrom endLine argument' ts) := by
  induction ts using arguments_induction argument with
  | step ts ih =>
      rw [argumentsFrom_eq_bind, argumentsFrom_eq_bind]
      refine (ha ts).bind (fun a mid hmid hroom => ?_) fun _ _ _ _ => nest_le_of_argumentsAfter
      cases mid with
      | nil => exact .error
      | cons t rest =>
          simp only [argumentsAfter]
          split
          · exact (ih a t rest hmid).map fun as => Nat.max_le.trans (and_iff_right hroom)
          · split
            · exact .ok (Nat.max_le.2 ⟨hroom, Nat.zero_le room⟩)
            · exact .error

theorem arguments_narrows (ha : argument.Narrows Expr.nest room argument') (ts : List Token) :
    (arguments endLine argument ts).Narrows Expr.nestAll room (arguments endLine argument' ts) := by
  cases ts with
  | nil => exact argumentsFrom_narrows ha []
  | cons t ts =>
      simp only [arguments]
      split
      · exact .ok (Nat.zero_le room)
      · exact argumentsFrom_narrows ha (t :: ts)

end Arguments

/-- What closes a construct takes no room. -/
theorem closing_narrows {kind : Token.Kind} {unclosed : Token.Kind → Nat → ParseError} {endLine : Nat}
    {nest : α → Nat} {o o' : Outcome α} (h : o.Narrows nest room o') :
    (o.bind (closing kind unclosed endLine)).Narrows nest room
      (o'.bind (closing kind unclosed endLine)) := by
  refine h.bind (fun a mid _ ha => ?_) fun a mid b rest hb => ?_
  · unfold closing
    split
    · exact .error
    · split
      · exact .ok ha
      · exact .error
  · unfold closing at hb
    split at hb
    · cases hb
    · split at hb
      · obtain ⟨rfl, -⟩ := Outcome.ok.inj hb
        exact Nat.le_refl _
      · cases hb

theorem statements_narrows {statement statement' : Rule Statement}
    (hs : statement.Narrows Statement.nest room statement') (ts : List Token) :
    (statements statement ts).Narrows Statement.nestAll room (statements statement' ts) := by
  induction ts using statements_induction statement with
  | stop ts hend =>
      rw [statements_of_ends hend, statements_of_ends hend]
      exact .ok (Nat.zero_le room)
  | more t ts hk ih =>
      rw [statements_cons hk, statements_cons hk]
      refine (hs (t :: ts)).bind (fun s mid hmid hroom => ?_) fun s mid body rest hbody => ?_
      · exact (ih s mid hmid).map fun body => Nat.max_le.trans (and_iff_right hroom)
      · obtain ⟨body, -, rfl⟩ := Outcome.map_eq_ok_iff.1 hbody
        exact Nat.le_max_left _ _

end Rule

namespace Grammar

/-- The rules of the second grammar do with only so much room what those of the first do. -/
structure Narrows (room : Nat) (g g' : Grammar) : Prop where
  factor : g.factor.Narrows Expr.nest room g'.factor
  assignment : g.assignment.Narrows Expr.nest room g'.assignment
  statement : g.statement.Narrows Statement.nest room g'.statement

/-- The rules for what is one level further in. Without room there are none. -/
inductive NarrowsInside : Nat → Option Grammar → Option Grammar → Prop where
  | none {inner : Option Grammar} : NarrowsInside 0 inner none
  | some {room : Nat} {g g' : Grammar} :
      g.Narrows room g' → NarrowsInside (room + 1) (some g) (some g')

variable {α β : Type} {g g' : Grammar} {endLine room : Nat} {inner inner' : Option Grammar}
  {ts : List Token}

/-- A construct that opens a level is one level deeper than what is inside. -/
theorem nested_narrows {body : Grammar → List Token → Outcome α} {nest : α → Nat} {nest' : β → Nat}
    {f : α → β} (hi : NarrowsInside room inner inner') (line : Nat)
    (hb : ∀ {g g' room}, g.Narrows room g' → (body g ts).Narrows nest room (body g' ts))
    (hf : ∀ a, nest' (f a) = nest a + 1) :
    ((nested inner line body ts).map f).Narrows nest' room ((nested inner' line body ts).map f) := by
  have hnested : (nested inner line body ts).Narrows (nest · + 1) room
      (nested inner' line body ts) := by
    cases hi with
    | none => exact .tooDeep fun a _ _ => Nat.succ_pos (nest a)
    | some h => exact (hb h).succ
  exact hnested.map fun a => by rw [hf]

theorem nested_group (line : Nat) (ts : List Token) :
    nested inner line (group endLine) ts =
      (nested inner line (fun g ts =>
        (g.assignment.run ts).bind (Rule.closing .rightParen .unclosedParen endLine)) ts).map
          .group := by
  cases inner with
  | none => rfl
  | some g =>
      simp only [nested, group_eq_bind]
      cases g.assignment.run ts with
      | error _ _ => rfl
      | ok e mid =>
          simp only [Outcome.bind, Rule.closing]
          split
          · rfl
          · split <;> rfl

theorem braced_narrows {statement statement' : Rule Statement}
    (h : statement.Narrows Statement.nest room statement') (ts : List Token) :
    (braced endLine statement ts).Narrows Statement.nestAll room (braced endLine statement' ts) := by
  rw [braced_eq_bind, braced_eq_bind]
  exact Rule.closing_narrows (Rule.statements_narrows h ts)

theorem nameOrCall_narrows (hi : NarrowsInside room inner inner') (line : Nat) (name : String)
    (ts : List Token) :
    (nameOrCall endLine inner line name ts).Narrows Expr.nest room
      (nameOrCall endLine inner' line name ts) := by
  cases ts with
  | nil => exact .ok (Nat.zero_le room)
  | cons t ts =>
      simp only [nameOrCall]
      split
      · exact nested_narrows hi line (fun h => Rule.arguments_narrows h.assignment ts) fun _ => rfl
      · exact .ok (Nat.zero_le room)

theorem factorRule_narrows (hi : NarrowsInside room inner inner') :
    (factorRule endLine inner).Narrows Expr.nest room (factorRule endLine inner') := by
  intro ts
  change (readFactor endLine inner ts).Narrows _ _ (readFactor endLine inner' ts)
  cases ts with
  | nil => exact .error
  | cons t ts =>
      simp only [readFactor]
      split
      case h_1 | h_2 => exact nested_narrows hi t.line (fun h => h.factor ts) fun _ => rfl
      case h_3 | h_4 => exact .ok (Nat.zero_le room)
      case h_5 name _ => exact nameOrCall_narrows hi t.line name ts
      case h_6 =>
        rw [nested_group, nested_group]
        exact nested_narrows hi t.line (fun h => Rule.closing_narrows (h.assignment ts)) fun _ => rfl
      case h_7 | h_8 | h_9 => exact .error

theorem logical_narrows {factor factor' : Rule Expr} (hf : factor.Narrows Expr.nest room factor') :
    (logical factor).Narrows Expr.nest room (logical factor') :=
  (((hf.chain .multiplicative).chain .additive).chain .comparison).chain .logical

theorem assignmentRule_narrows (hi : NarrowsInside room inner inner') :
    (assignmentRule endLine inner).Narrows Expr.nest room (assignmentRule endLine inner') := by
  intro ts
  change (readAssignment inner _ ts).Narrows _ _ (readAssignment inner' _ ts)
  by_cases htarget : HasTarget ts
  · obtain ⟨name, line, line', mid, rfl⟩ := htarget
    exact nested_narrows hi line (fun h => h.assignment mid) fun _ => rfl
  · rw [readAssignment_of_not_hasTarget htarget, readAssignment_of_not_hasTarget htarget]
    exact logical_narrows (factorRule_narrows hi) ts

theorem readDeclaration_narrows {assignment assignment' : Rule Expr}
    (ha : assignment.Narrows Expr.nest room assignment') (line : Nat) (ts : List Token) :
    (readDeclaration assignment line ts).Narrows Statement.nest room
      (readDeclaration assignment' line ts) := by
  unfold readDeclaration
  split
  · exact .error
  · split
    · exact .error
    · split
      · exact (ha _).map (f := Statement.declare line _) fun _ => Iff.rfl
      · exact .error
  · exact .error

theorem statementRule_narrows (hi : NarrowsInside room inner inner') :
    (statementRule endLine inner).Narrows Statement.nest room (statementRule endLine inner') := by
  intro ts
  have ha : (assignmentRule endLine inner).Narrows Expr.nest room (assignmentRule endLine inner') :=
    assignmentRule_narrows hi
  change (readStatement endLine inner _ ts).Narrows _ _ (readStatement endLine inner' _ ts)
  cases ts with
  | nil => exact (ha []).map (f := Statement.expression) fun _ => Iff.rfl
  | cons t ts =>
      simp only [readStatement]
      split
      · exact readDeclaration_narrows ha t.line ts
      · exact nested_narrows hi t.line (fun h => braced_narrows h.statement ts) fun _ => rfl
      · exact (ha (t :: ts)).map (f := Statement.expression) fun _ => Iff.rfl

theorem next_narrows (hi : NarrowsInside room inner inner') :
    (next endLine inner).Narrows room (next endLine inner') :=
  ⟨factorRule_narrows hi, assignmentRule_narrows hi, statementRule_narrows hi⟩

theorem withRoom_narrows (endLine : Nat) {room wide : Nat} (h : room ≤ wide) :
    (withRoom endLine wide).Narrows room (withRoom endLine room) := by
  induction room generalizing wide with
  | zero => cases wide <;> exact next_narrows .none
  | succ room ih =>
      cases wide with
      | zero => exact absurd h (Nat.not_succ_le_zero room)
      | succ wide => exact next_narrows (.some (ih (Nat.le_of_succ_le_succ h)))

end Grammar

namespace Production

variable {α : Type}

/-- The levels of nesting in what a part of the grammar reads. The braces of a block that is read by
itself are none of them. -/
def nest : Production α → α → Nat
  | block | braced _ => Block.nest
  | statement => Statement.nest
  | assignment | logical | comparison | additive | multiplicative | factor => Expr.nest

theorem readWith_narrows {g g' : Grammar} {room : Nat} (h : g.Narrows room g') (endLine : Nat)
    (p : Production α) (ts : List Token) :
    (p.readWith g endLine ts).Narrows p.nest room (p.readWith g' endLine ts) := by
  have hm := h.factor.chain .multiplicative
  have ha := hm.chain .additive
  have hc := ha.chain .comparison
  cases p with
  | block => exact (Rule.statements_narrows h.statement ts).map fun _ => Iff.rfl
  | braced line => exact (Grammar.braced_narrows h.statement ts).map fun _ => Iff.rfl
  | statement => exact h.statement ts
  | assignment => exact h.assignment ts
  | logical => exact hc.chain .logical ts
  | comparison => exact hc ts
  | additive => exact ha ts
  | multiplicative => exact hm ts
  | factor => exact h.factor ts

end Production

/-- The nesting limit is exact. Wherever a part of the grammar is read with some levels open already, it
ends as it does with none, unless that takes more levels than are left; and then it fails because of the
nesting. An error stays the same too, if it does not turn into one about the nesting. -/
theorem Cursor.read_depth {α : Type} (p : Production α) (tokens : List Token) (position : Nat)
    {depth : Nat} (hdepth : depth ≤ 128) :
    let r := Cursor.read p ⟨tokens, position, 0⟩
    let r' := Cursor.read p ⟨tokens, position, depth⟩
    (∀ a, r.1 = .ok a →
      (depth + p.nest a ≤ 128 → r'.1 = .ok a ∧ r'.2.position = r.2.position) ∧
        (128 < depth + p.nest a → ∃ line, r'.1 = .error (.nestingTooDeep 128 line))) ∧
    (∀ limit line, r.1 = .error (.nestingTooDeep limit line) →
      ∃ limit line, r'.1 = .error (.nestingTooDeep limit line)) ∧
    ∀ e, r.1 = .error e → r'.1 = .error e ∧ r'.2.position = r.2.position ∨
      ∃ line, r'.1 = .error (.nestingTooDeep 128 line) := by
  have hread : (p.read (endLine tokens) nestingLimit (tokens.drop position)).Narrows p.nest
      (nestingLimit - depth) (p.read (endLine tokens) (nestingLimit - depth) (tokens.drop position)) :=
    p.readWith_narrows (Grammar.withRoom_narrows _ (Nat.sub_le nestingLimit depth)) _ _
  simp only [Cursor.read, Cursor.rest, Nat.sub_zero]
  generalize p.read (endLine tokens) nestingLimit (tokens.drop position) = o at hread
  generalize p.read (endLine tokens) (nestingLimit - depth) (tokens.drop position) = o' at hread
  unfold nestingLimit at hread
  cases hread with
  | ok ha =>
      refine ⟨fun b hb => ?_, nofun, nofun⟩
      obtain rfl := Except.ok.inj hb
      exact ⟨fun _ => ⟨rfl, rfl⟩, fun hlt => absurd hlt (by omega)⟩
  | error => exact ⟨nofun, fun limit line he => ⟨limit, line, he⟩, fun e he => .inl ⟨he, rfl⟩⟩
  | tooDeep hdeep =>
      refine ⟨fun a ha => ⟨fun hle => ?_, fun _ => ⟨_, rfl⟩⟩, fun _ _ _ => ⟨_, _, rfl⟩,
        fun _ _ => .inr ⟨_, rfl⟩⟩
      cases o with
      | error e rest => cases ha
      | ok b rest =>
          obtain rfl := Except.ok.inj ha
          exact absurd (hdeep b rest rfl) (by omega)

/-- A group in a prefix operator in an assignment in a call, and an empty list of arguments: five levels
if taken together, for which there is room behind 123 others and not behind 124. -/
theorem Cursor.read_depth_limit :
    let ts : List Token := [⟨.identifier "f", 1⟩, ⟨.leftParen, 1⟩, ⟨.identifier "x", 2⟩, ⟨.assign, 2⟩,
      ⟨.bang, 3⟩, ⟨.leftParen, 4⟩, ⟨.identifier "g", 5⟩, ⟨.leftParen, 5⟩, ⟨.rightParen, 5⟩,
      ⟨.rightParen, 6⟩, ⟨.rightParen, 7⟩, ⟨.star, 8⟩]
    let e : Expr := .call 1 "f" [.assign 2 "x" (.not 3 (.group (.call 5 "g" [])))]
    let last := Cursor.read .factor ⟨ts, 0, 123⟩
    let more := Cursor.read .factor ⟨ts, 0, 124⟩
    last.1 = .ok e ∧ last.2.position = 11 ∧ ∃ line, more.1 = .error (.nestingTooDeep 128 line) := by
  intro ts e last more
  have hread : (Cursor.read .factor ⟨ts, 0, 0⟩).1 = .ok e := by with_unfolding_all rfl
  have hplace : (Cursor.read .factor ⟨ts, 0, 0⟩).2.position = 11 := by with_unfolding_all rfl
  obtain ⟨hlast, hposition⟩ :=
    ((read_depth .factor ts 0 (by decide : 123 ≤ 128)).1 e hread).1 (by decide)
  exact ⟨hlast, hposition.trans hplace,
    ((read_depth .factor ts 0 (by decide : 124 ≤ 128)).1 e hread).2 (by decide)⟩

end Abacus
