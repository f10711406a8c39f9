import Abacus.Proofs.Syntax.Reading

/-!
Soundness of reading: a tree that a rule returns is spelled by exactly the tokens that the rule has
used, its lines are theirs, and it opens no more levels than there was room for. The rules of one
room are sound if those of the next one are, so everything follows by induction on the room.
-/
namespace Abacus

namespace Rule

/-- A rule returns only expressions that its tokens start with, and leaves what cannot carry them
on. -/
def SoundAt (tight room : Nat) (rule : Rule Expr) : Prop :=
  ∀ ⦃ts e rest⦄, rule.run ts = .ok e rest →
    e.Leads tight room ts rest ∧ Stops tight e.yield rest

theorem chainFrom_sound {level : Level} {room : Nat} {operand : Rule Expr}
    (ho : operand.SoundAt (level.rank + 1) room) {start ts rest : List Token} {left e : Expr}
    (hl : left.Leads level.rank room start ts) (hs : Stops (level.rank + 1) left.yield ts)
    (h : chainFrom level operand left ts = .ok e rest) :
    e.Leads level.rank room start rest ∧ Stops level.rank e.yield rest := by
  fun_induction chainFrom level operand left ts with
  | case1 left =>
      obtain ⟨rfl, rfl⟩ := Outcome.ok.inj h
      exact ⟨hl, by simp, by simp⟩
  | case2 left t ts hk =>
      obtain ⟨rfl, rfl⟩ := Outcome.ok.inj h
      refine ⟨hl, fun t' ht op hop => ?_, hs.call⟩
      obtain rfl : t = t' := by simpa using ht
      rw [Token.Kind.binOp?_eq_some_iff.2 hop] at hk
      cases hk
  | case3 => cases h
  | case4 left t ts op hk hlevel right mid hr ih =>
      obtain ⟨hlead, hstop⟩ := ho hr
      subst hlevel
      have hop : t.kind = op.kind := Token.Kind.binOp?_eq_some_iff.1 hk
      refine ih ⟨?_, ?_, ?_, ?_⟩ ⟨hstop.operator, ?_⟩ h
      · exact hl.spells.append (.cons ⟨hop, rfl⟩ hlead.spells)
      · exact ⟨hl.layered, hlead.layered, hl.tight_le, hlead.tight_le⟩
      · exact Nat.le_refl _
      · exact Nat.max_le.2 ⟨hl.nest_le, hlead.nest_le⟩
      · simpa using hstop.call
  | case5 left t ts op hk hlevel =>
      obtain ⟨rfl, rfl⟩ := Outcome.ok.inj h
      refine ⟨hl, fun t' ht op' hop => ?_, hs.call⟩
      obtain rfl : t = t' := by simpa using ht
      rw [Token.Kind.binOp?_eq_some_iff.2 hop] at hk
      obtain rfl := Option.some.inj hk
      have := hs.operator t rfl op' hop
      have : op'.level.rank ≠ level.rank := fun hr => hlevel (Level.rank_injective hr)
      omega

theorem SoundAt.chain (level : Level) {room : Nat} {operand : Rule Expr}
    (ho : operand.SoundAt (level.rank + 1) room) :
    (Rule.chain level operand).SoundAt level.rank room := by
  intro ts e rest h
  obtain ⟨left, mid, hl, hc⟩ := Outcome.bind_eq_ok_iff.1 h
  obtain ⟨hlead, hstop⟩ := ho hl
  exact chainFrom_sound ho { hlead with tight_le := Nat.le_of_succ_le hlead.tight_le } hstop hc

theorem argumentsFrom_sound {endLine room : Nat} {argument : Rule Expr}
    (ha : argument.SoundAt 0 room) {ts rest : List Token} {es : List Expr}
    (h : argumentsFrom endLine argument ts = .ok es rest) :
    es ≠ [] ∧ Expr.LeadAll room es ts rest := by
  fun_induction argumentsFrom endLine argument ts generalizing es with
  | case1 | case2 | case5 => cases h
  | case3 ts a t mid hm hk ih =>
      obtain ⟨as, has, rfl⟩ := Outcome.map_eq_ok_iff.1 h
      obtain ⟨hlead, _⟩ := ha hm
      obtain ⟨hne, hall⟩ := ih has
      refine ⟨List.cons_ne_nil _ _, ?_, ⟨hlead.layered, hall.layered⟩,
        Nat.max_le.2 ⟨hlead.nest_le, hall.nest_le⟩⟩
      rw [Expr.yieldArguments_cons hne, List.append_assoc]
      exact hlead.spells.append (.cons hk hall.spells)
  | case4 ts a t mid hm hk hp =>
      obtain ⟨rfl, rfl⟩ := Outcome.ok.inj h
      obtain ⟨hlead, _⟩ := ha hm
      exact ⟨List.cons_ne_nil _ _, hlead.spells.append (.cons hp .nil), ⟨hlead.layered, trivial⟩,
        Nat.max_le.2 ⟨hlead.nest_le, Nat.zero_le _⟩⟩

theorem arguments_sound {endLine room : Nat} {argument : Rule Expr}
    (ha : argument.SoundAt 0 room) {ts rest : List Token} {es : List Expr}
    (h : arguments endLine argument ts = .ok es rest) : Expr.LeadAll room es ts rest := by
  unfold arguments at h
  split at h
  · exact (argumentsFrom_sound ha h).2
  · split at h
    · next hk =>
      obtain ⟨rfl, rfl⟩ := Outcome.ok.inj h
      exact ⟨.cons hk .nil, trivial, Nat.zero_le _⟩
    · exact (argumentsFrom_sound ha h).2

def SoundWithin (room : Nat) (rule : Rule Statement) : Prop :=
  ∀ ⦃ts s rest⦄, rule.run ts = .ok s rest → s.Leads room ts rest ∧ s.StopsAt rest

theorem statements_sound {room : Nat} {statement : Rule Statement}
    (hs : statement.SoundWithin room) {ts rest : List Token} {body : List Statement}
    (h : statements statement ts = .ok body rest) :
    Statement.LeadAll room body ts rest ∧ ∀ t ∈ rest.head?, endsStatements t.kind := by
  fun_induction statements statement ts generalizing body with
  | case1 =>
      obtain ⟨rfl, rfl⟩ := Outcome.ok.inj h
      exact ⟨⟨.nil, trivial, trivial, Nat.zero_le _⟩, by simp⟩
  | case2 t ts hk =>
      obtain ⟨rfl, rfl⟩ := Outcome.ok.inj h
      exact ⟨⟨.nil, trivial, trivial, Nat.zero_le _⟩, by simpa using hk⟩
  | case3 => cases h
  | case4 t ts hk s mid hm ih =>
      obtain ⟨more, hmore, rfl⟩ := Outcome.map_eq_ok_iff.1 h
      obtain ⟨hlead, hstop⟩ := hs hm
      obtain ⟨hall, hend⟩ := ih hmore
      refine ⟨⟨hlead.spells.append hall.spells, ⟨hlead.layered, hall.layered⟩,
        ⟨hlead.separated, fun t ht => ?_, hall.separated⟩,
        Nat.max_le.2 ⟨hlead.nest_le, hall.nest_le⟩⟩, hend⟩
      cases more with
      | nil => cases ht
      | cons next more =>
          obtain rfl : next = t := by simpa using ht
          obtain ⟨_, hnext, _⟩ := spells_append_iff.1 hall.spells
          exact (Statement.stopsAt_iff_standsApart hnext).1 hstop

end Rule

namespace Grammar

/-- The rules of a grammar are sound, with room for that many levels. -/
structure Sound (room : Nat) (g : Grammar) : Prop where
  factor : g.factor.SoundAt 5 room
  assignment : g.assignment.SoundAt 0 room
  statement : g.statement.SoundWithin room

variable {endLine room : Nat} {inner : Option Grammar} {ts rest : List Token}

/-- Reading a group uses its parentheses. The opening one is already used. -/
theorem group_sound {g : Grammar} (hg : g.Sound room) {e : Expr}
    (h : group endLine g ts = .ok e rest) :
    ∃ inner : Expr, e = .group inner ∧ inner.Layered ∧ inner.nest ≤ room ∧
      Spells (inner.yield ++ [.anywhere .rightParen]) ts rest := by
  obtain ⟨a, mid, ha, hm⟩ := Outcome.bind_eq_ok_iff.1 h
  obtain ⟨hlead, _⟩ := hg.assignment ha
  cases mid with
  | nil => cases hm
  | cons t mid =>
      simp only at hm
      split at hm
      · next hk =>
        obtain ⟨rfl, rfl⟩ := Outcome.ok.inj hm
        exact ⟨a, rfl, hlead.layered, hlead.nest_le, hlead.spells.append (.cons hk .nil)⟩
      · cases hm

theorem braced_sound {statement : Rule Statement} (hs : statement.SoundWithin room)
    {body : List Statement} (h : braced endLine statement ts = .ok body rest) :
    Statement.LayeredAll body ∧ Statement.SeparatedAll body ∧ Statement.nestAll body ≤ room ∧
      Spells (Statement.yieldAll body ++ [.anywhere .rightBrace]) ts rest := by
  obtain ⟨a, mid, ha, hm⟩ := Outcome.bind_eq_ok_iff.1 h
  obtain ⟨hall, _⟩ := Rule.statements_sound hs ha
  cases mid with
  | nil => cases hm
  | cons t mid =>
      simp only at hm
      split at hm
      · next hk =>
        obtain ⟨rfl, rfl⟩ := Outcome.ok.inj hm
        exact ⟨hall.layered, hall.separated, hall.nest_le, hall.spells.append (.cons hk .nil)⟩
      · cases hm

theorem nameOrCall_sound (hi : ∀ g ∈ inner, ∃ r < room, g.Sound r) {t : Token} {name : String}
    (ht : t.kind = .identifier name) {e : Expr}
    (h : nameOrCall endLine inner t.line name ts = .ok e rest) :
    e.Leads 5 room (t :: ts) rest ∧ Stops 5 e.yield rest := by
  have hop : ∀ u ∈ rest.head?, ∀ op : BinOp, u.kind = op.kind → op.level.rank < 5 :=
    fun _ _ op _ => op.level.rank_lt
  unfold nameOrCall at h
  split at h
  · obtain ⟨rfl, rfl⟩ := Outcome.ok.inj h
    exact ⟨⟨.cons ⟨ht, rfl⟩ .nil, trivial, Nat.le_refl _, Nat.zero_le _⟩, hop, by simp⟩
  · split at h
    · next hk =>
      obtain ⟨as, ha, rfl⟩ := Outcome.map_eq_ok_iff.1 h
      obtain ⟨g, hg, ha⟩ := nested_eq_ok_iff.1 ha
      obtain ⟨r, hr, hsound⟩ := hi g hg
      have hall := Rule.arguments_sound hsound.assignment ha
      exact ⟨⟨.cons ⟨ht, rfl⟩ (.cons hk hall.spells), hall.layered, Nat.le_refl _,
        Nat.lt_of_le_of_lt hall.nest_le hr⟩, hop, by simp⟩
    · next hk =>
      obtain ⟨rfl, rfl⟩ := Outcome.ok.inj h
      refine ⟨⟨.cons ⟨ht, rfl⟩ .nil, trivial, Nat.le_refl _, Nat.zero_le _⟩, hop, fun _ u hu => ?_⟩
      obtain rfl : _ = u := by simpa using hu
      exact hk

theorem factorRule_sound (hi : ∀ g ∈ inner, ∃ r < room, g.Sound r) :
    (factorRule endLine inner).SoundAt 5 room := by
  intro ts e rest h
  have hop : ∀ u ∈ rest.head?, ∀ op : BinOp, u.kind = op.kind → op.level.rank < 5 :=
    fun _ _ op _ => op.level.rank_lt
  simp only [factorRule, readFactor] at h
  split at h
  · cases h
  · next t ts =>
    split at h
    case h_1 ht | h_2 ht =>
      obtain ⟨a, ha, rfl⟩ := Outcome.map_eq_ok_iff.1 h
      obtain ⟨g, hg, ha⟩ := nested_eq_ok_iff.1 ha
      obtain ⟨r, hr, hsound⟩ := hi g hg
      obtain ⟨hlead, hstop⟩ := hsound.factor ha
      exact ⟨⟨.cons ⟨ht, rfl⟩ hlead.spells, ⟨hlead.layered, hlead.tight_le⟩, Nat.le_refl _,
        Nat.lt_of_le_of_lt hlead.nest_le hr⟩, hop, by simpa using hstop.call⟩
    case h_3 ht | h_4 ht =>
      obtain ⟨rfl, rfl⟩ := Outcome.ok.inj h
      refine ⟨⟨.cons ⟨?_, rfl⟩ .nil, trivial, Nat.le_refl _, Nat.zero_le _⟩, hop,
        fun h => by cases h⟩
      first | exact .inl ht | exact .inr ht
    case h_5 ht => exact nameOrCall_sound hi ht h
    case h_6 ht =>
      obtain ⟨g, hg, ha⟩ := nested_eq_ok_iff.1 h
      obtain ⟨r, hr, hsound⟩ := hi g hg
      obtain ⟨a, rfl, hlayered, hnest, hspells⟩ := group_sound hsound ha
      exact ⟨⟨.cons ht hspells, hlayered, Nat.le_refl _, Nat.lt_of_le_of_lt hnest hr⟩, hop,
        by simp⟩
    case h_7 | h_8 | h_9 => cases h

theorem logical_sound {factor : Rule Expr} (hf : factor.SoundAt 5 room) :
    (logical factor).SoundAt 1 room := by
  have hm : (multiplicative factor).SoundAt 4 room := .chain .multiplicative hf
  have ha : (additive factor).SoundAt 3 room := .chain .additive hm
  have hc : (comparison factor).SoundAt 2 room := .chain .comparison ha
  exact .chain .logical hc

theorem assignmentRule_sound (hi : ∀ g ∈ inner, ∃ r < room, g.Sound r) :
    (assignmentRule endLine inner).SoundAt 0 room := by
  intro ts e rest h
  simp only [assignmentRule, readAssignment] at h
  split at h
  · obtain ⟨a, ha, rfl⟩ := Outcome.map_eq_ok_iff.1 h
    obtain ⟨g, hg, ha⟩ := nested_eq_ok_iff.1 ha
    obtain ⟨r, hr, hsound⟩ := hi g hg
    obtain ⟨hlead, hstop⟩ := hsound.assignment ha
    exact ⟨⟨.cons ⟨rfl, rfl⟩ (.cons rfl hlead.spells), hlead.layered, Nat.zero_le _,
      Nat.lt_of_le_of_lt hlead.nest_le hr⟩, hstop.operator, by simpa using hstop.call⟩
  · obtain ⟨hlead, hstop⟩ := logical_sound (factorRule_sound hi) h
    exact ⟨{ hlead with tight_le := Nat.zero_le _ }, hstop.zero⟩

/-- An expression that nothing can carry on is a statement that nothing can carry on. -/
theorem stopsAt_expression {e : Expr} (h : Stops 0 e.yield rest) :
    (Statement.expression e).StopsAt rest :=
  ⟨fun _ t ht op hk => Nat.not_lt_zero _ (h.operator t ht op hk), h.call⟩

theorem readDeclaration_sound {assignment : Rule Expr} (ha : assignment.SoundAt 0 room) {t : Token}
    (ht : t.kind = .keyword .var) {s : Statement}
    (h : readDeclaration assignment t.line ts = .ok s rest) :
    s.Leads room (t :: ts) rest ∧ s.StopsAt rest := by
  unfold readDeclaration at h
  split at h
  · cases h
  · split at h
    · cases h
    · split at h
      · next hk =>
        obtain ⟨e, he, rfl⟩ := Outcome.map_eq_ok_iff.1 h
        obtain ⟨hlead, hstop⟩ := ha he
        refine ⟨⟨.cons ⟨ht, rfl⟩ (.cons rfl (.cons hk hlead.spells)), hlead.layered, trivial,
          hlead.nest_le⟩, (stopsAt_expression hstop).operator, by simpa using hstop.call⟩
      · cases h
  · cases h

theorem statementRule_sound (hi : ∀ g ∈ inner, ∃ r < room, g.Sound r) :
    (statementRule endLine inner).SoundWithin room := by
  intro ts s rest h
  have ha : (assignmentRule endLine inner).SoundAt 0 room := assignmentRule_sound hi
  have hexpr : ∀ {ts}, ((assignmentRule endLine inner).run ts).map .expression = .ok s rest →
      s.Leads room ts rest ∧ s.StopsAt rest := by
    intro ts h
    obtain ⟨e, he, rfl⟩ := Outcome.map_eq_ok_iff.1 h
    obtain ⟨hlead, hstop⟩ := ha he
    exact ⟨⟨hlead.spells, hlead.layered, trivial, hlead.nest_le⟩, stopsAt_expression hstop⟩
  simp only [statementRule, readStatement] at h
  split at h
  · exact hexpr h
  · next t ts =>
    split at h
    · next ht => exact readDeclaration_sound ha ht h
    · next ht =>
      obtain ⟨body, hb, rfl⟩ := Outcome.map_eq_ok_iff.1 h
      obtain ⟨g, hg, hb⟩ := nested_eq_ok_iff.1 hb
      obtain ⟨r, hr, hsound⟩ := hi g hg
      obtain ⟨hlayered, hseparated, hnest, hspells⟩ := braced_sound hsound.statement hb
      exact ⟨⟨.cons ⟨ht, rfl⟩ hspells, hlayered, hseparated, Nat.lt_of_le_of_lt hnest hr⟩,
        ⟨fun h => (by cases h), by simp⟩⟩
    · exact hexpr h

theorem next_sound (hi : ∀ g ∈ inner, ∃ r < room, g.Sound r) : (next endLine inner).Sound room :=
  ⟨factorRule_sound hi, assignmentRule_sound hi, statementRule_sound hi⟩

theorem withRoom_sound (endLine room : Nat) : (withRoom endLine room).Sound room := by
  induction room with
  | zero => exact next_sound nofun
  | succ room ih =>
      apply next_sound
      rintro g ⟨⟩
      exact ⟨room, Nat.lt_succ_self _, ih⟩

end Grammar

/-- A program that was read is spelled by the whole token list, up to an `eof`. It belongs to the
grammar and opens no more levels than are allowed. -/
theorem spelledBy_of_parse {ts : List Token} {b : Block} (h : parse ts = .ok b) :
    b.SpelledBy ts ∧ b.Layered ∧ b.nest ≤ 128 := by
  obtain ⟨hline, tail, htail, hbody⟩ := parse_eq_ok_iff.1 h
  obtain ⟨hall, _⟩ := Rule.statements_sound (Grammar.withRoom_sound _ _).statement hbody
  exact ⟨⟨⟨tail, hall.spells, htail⟩, hline⟩, hall.layered, hall.nest_le⟩

theorem spelledBy_of_parse_nested :
    let ts : List Token := [⟨.leftBrace, 3⟩, ⟨.keyword .var, 1⟩, ⟨.identifier "x", 2⟩, ⟨.assign, 2⟩,
      ⟨.minus, 7⟩, ⟨.integer 1, 2⟩, ⟨.identifier "x", 4⟩, ⟨.rightBrace, 4⟩, ⟨.leftParen, 5⟩,
      ⟨.identifier "y", 6⟩, ⟨.assign, 6⟩, ⟨.identifier "f", 8⟩, ⟨.leftParen, 8⟩,
      ⟨.identifier "x", 9⟩, ⟨.comma, 9⟩, ⟨.float 2, 1⟩, ⟨.star, 0⟩, ⟨.integer 3, 1⟩,
      ⟨.rightParen, 1⟩, ⟨.rightParen, 1⟩, ⟨.eof, 5⟩]
    let b : Block := ⟨3, [.block 3 [.declare 1 "x" (.negate 7 (.number 2 1)),
        .expression (.name 4 "x")],
      .expression (.group (.assign 6 "y" (.call 8 "f" [.name 9 "x",
        .binary 0 .mul (.number 1 2) (.number 1 3)])))]⟩
    parse ts = .ok b ∧ b.SpelledBy ts ∧ b.Layered ∧ b.nest ≤ 128 := by
  intro ts b
  have h : parse ts = .ok b := by with_unfolding_all rfl
  exact ⟨h, spelledBy_of_parse h⟩

end Abacus
