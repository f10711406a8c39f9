import Abacus.Proofs.Syntax.Spelling
import Abacus.Syntax.Cursor

/-!
What it means that a token list starts with an expression, a statement or a list of statements, and
that what follows cannot carry it on. Both directions of the parser's correctness are stated with
these: a rule reads exactly what stands at the front of its tokens, as far as it goes.
-/
namespace Abacus

/-- The tokens `ts` start with an expression of the grammar that binds at least as tightly as `tight`
and opens at most `room` levels, and `rest` follows. -/
structure Expr.Leads (tight room : Nat) (e : Expr) (ts rest : List Token) : Prop where
  spells : Spells e.yield ts rest
  layered : e.Layered
  tight_le : tight ≤ e.tightness
  nest_le : e.nest ≤ room

/-- The tokens `rest` do not carry on a spelling where operators bind at least as tightly as
`tight`. -/
structure Stops (tight : Nat) (slots : List Slot) (rest : List Token) : Prop where
  operator : ∀ t ∈ rest.head?, ∀ op : BinOp, t.kind = op.kind → op.level.rank < tight
  call : endsInName slots → ∀ t ∈ rest.head?, t.kind ≠ .leftParen

structure Expr.LeadAll (room : Nat) (es : List Expr) (ts rest : List Token) : Prop where
  spells : Spells (Expr.yieldArguments es ++ [.anywhere .rightParen]) ts rest
  layered : Expr.LayeredAll es
  nest_le : Expr.nestAll es ≤ room

structure Statement.Leads (room : Nat) (s : Statement) (ts rest : List Token) : Prop where
  spells : Spells s.yield ts rest
  layered : s.Layered
  separated : s.Separated
  nest_le : s.nest ≤ room

structure Statement.LeadAll (room : Nat) (body : List Statement) (ts rest : List Token) : Prop where
  spells : Spells (Statement.yieldAll body) ts rest
  layered : Statement.LayeredAll body
  separated : Statement.SeparatedAll body
  nest_le : Statement.nestAll body ≤ room

/-- The tokens `rest` do not carry on a statement. A block is closed by its brace. -/
structure Statement.StopsAt (s : Statement) (rest : List Token) : Prop where
  operator : s.isBlock = false → ∀ t ∈ rest.head?, ∀ op : BinOp, t.kind ≠ op.kind
  call : endsInName s.yield → ∀ t ∈ rest.head?, t.kind ≠ .leftParen

theorem Level.rank_pos (level : Level) : 0 < level.rank := by
  cases level <;> decide

theorem Level.rank_injective {level level' : Level} (h : level.rank = level'.rank) :
    level = level' := by
  cases level <;> cases level' <;> first | rfl | simp [rank] at h

theorem Level.rank_lt (level : Level) : level.rank < 5 := by
  cases level <;> decide

theorem Expr.yieldArguments_cons {e : Expr} {es : List Expr} (h : es ≠ []) :
    yieldArguments (e :: es) = e.yield ++ .anywhere .comma :: yieldArguments es := by
  cases es with
  | nil => cases h rfl
  | cons => rfl

theorem Grammar.nested_eq_ok_iff {α : Type} {inner : Option Grammar} {line : Nat}
    {body : Grammar → List Token → Outcome α} {ts rest : List Token} {a : α} :
    nested inner line body ts = .ok a rest ↔ ∃ g ∈ inner, body g ts = .ok a rest := by
  cases inner <;> simp [nested]

/-- No operator binds more loosely than a logical one, so nothing is new below. -/
theorem Stops.zero {slots : List Slot} {rest : List Token} (h : Stops 1 slots rest) :
    Stops 0 slots rest := by
  refine ⟨fun t ht op hk => ?_, h.call⟩
  have := h.operator t ht op hk
  have := op.level.rank_pos
  omega

/-- Of the tokens that can start a statement, only the minus sign is an operator. -/
theorem Token.Kind.eq_minus_of_startsStatement {kind : Token.Kind} {op : BinOp}
    (h : kind.startsStatement) (hk : kind = op.kind) : kind = .minus := by
  subst hk
  cases op <;> first | rfl | cases h

/-- A statement stops where the next one starts exactly if the two can be told apart. -/
theorem Statement.stopsAt_iff_standsApart {s t : Statement} {ts rest : List Token}
    (ht : Spells t.yield ts rest) : s.StopsAt ts ↔ s.StandsApart t := by
  obtain ⟨first, mid, rfl, hfirst⟩ := starts_of_spells ht
  constructor
  · intro hs
    refine ⟨fun hm => ?_, fun hp he => hs.call he first rfl (ht.kind_eq hp)⟩
    cases hb : s.isBlock with
    | true => rfl
    | false => exact absurd (ht.kind_eq hm) (hs.operator hb first rfl .sub)
  · intro ha
    have hstart : ∀ {kind}, first.kind = kind → (∀ v, kind ≠ .integer v) → (∀ v, kind ≠ .float v) →
        startsWith kind t.yield := by
      rintro _ rfl
      exact ht.startsWith_of_kind t.yield_ne_nil
    refine ⟨fun hb u hu op hk => ?_, fun he u hu hp => ?_⟩
    · obtain rfl : first = u := by simpa using hu
      have hm := Token.Kind.eq_minus_of_startsStatement hfirst hk
      rw [ha.1 (hstart hm nofun nofun)] at hb
      cases hb
    · obtain rfl : first = u := by simpa using hu
      exact ha.2 (hstart hp nofun nofun) he

theorem Cursor.lineAt_endLine (ts : List Token) :
    Grammar.lineAt (endLine ts) ts = (ts.head?.map Token.line).getD 1 := by
  cases ts <;> rfl

/-- A program is what stands before the end of the tokens, or before an `eof` that ends them. -/
theorem parse_eq_ok_iff {ts : List Token} {b : Block} :
    parse ts = .ok b ↔
      b.line = (ts.head?.map Token.line).getD 1 ∧
      ∃ tail, (tail = [] ∨ ∃ line, tail = [⟨.eof, line⟩]) ∧
        Rule.statements (Grammar.withRoom (Cursor.endLine ts) nestingLimit).statement ts =
          .ok b.statements tail := by
  simp only [parse, Production.read, Production.readWith, Cursor.lineAt_endLine]
  obtain ⟨line, body⟩ := b
  cases h : Rule.statements (Grammar.withRoom (Cursor.endLine ts) nestingLimit).statement ts with
  | error e rest => simp [Outcome.map]
  | ok body' rest =>
      rcases rest with _ | ⟨⟨kind, l⟩, _ | ⟨extra, rest⟩⟩ <;> simp only [Outcome.map]
      · simp [eq_comm]
      · by_cases hk : kind = .eof <;> simp [hk, eq_comm]
      · by_cases hk : kind = .eof <;> simp [hk]

end Abacus
