import Abacus.Proofs.Syntax.Refinement
import Abacus.Proofs.Syntax.Blame

/-!
Progress of a cursor. Whatever is read, and however that ends, the cursor has gone forward over tokens none of
which is an `eof`, and as many levels are open as before. After a success it has gone over a token at least,
unless the success is an empty block. So every loop ends, and limits that are large enough are not felt.
-/
namespace Abacus

/-- What can be read by itself: a part of the grammar, or a list of arguments from behind its parenthesis
on. -/
inductive Part : Type → Type 1 where
  | production {α : Type} (p : Production α) : Part α
  | arguments : Part (List Expr)

namespace Part

variable {α : Type}

def moves (turns calls : Nat) : {α : Type} → Part α → Moves α
  | _, production p => p.moves turns calls
  | _, arguments => Moves.arguments turns (Moves.Rules.within turns calls).assignment

def read (endLine room : Nat) : {α : Type} → Part α → List Token → Outcome α
  | _, production p => p.read endLine room
  | _, arguments => Rule.arguments endLine (Grammar.withRoom endLine room).assignment

/-- Whether it takes a token to read a value. Only an empty block takes none. -/
def TakesToken : {α : Type} → Part α → α → Prop
  | _, production .block, b => b.statements ≠ []
  | _, _, _ => True

end Part

/-- Reads a part at the cursor and moves it to the first token that is not used. -/
def Cursor.readPart : {α : Type} → Part α → Cursor → Except ParseError α × Cursor
  | _, .production p, c => c.read p
  | _, .arguments, c =>
    let outcome := Part.arguments.read (endLine c.tokens) (nestingLimit - c.depth) c.rest
    (outcome.result, { c with position := c.tokens.length - outcome.rest.length })

theorem Rule.length_lt_iff_of_statements {statement : Rule Statement} {ts rest : List Token}
    {body : List Statement} (h : statements statement ts = .ok body rest) :
    rest.length < ts.length ↔ body ≠ [] := by
  induction ts using statements_induction statement with
  | stop ts hend =>
      rw [statements_of_ends hend] at h
      obtain ⟨rfl, rfl⟩ := Outcome.ok.inj h
      simp
  | more t ts hk _ =>
      rw [statements_cons hk] at h
      obtain ⟨s, mid, hs, hmore⟩ := Outcome.bind_eq_ok_iff.1 h
      obtain ⟨body, hbody, rfl⟩ := Outcome.map_eq_ok_iff.1 hmore
      have hlt : rest.length < (t :: ts).length :=
        Nat.lt_of_le_of_lt (length_le_of_statements hbody) (statement.progress hs)
      exact iff_of_true hlt (List.cons_ne_nil s body)

namespace Part

variable {α : Type} {endLine room : Nat} {ts rest : List Token}

theorem moves_follow (p : Part α) {tokens : List Token} {depth turns calls : Nat}
    (hdepth : depth ≤ nestingLimit) (hcalls : nestingLimit - depth < calls) :
    (p.moves turns calls).Follows tokens depth turns
      (p.read (Cursor.endLine tokens) (nestingLimit - depth)) := by
  cases p with
  | production p => exact p.moves_follow hdepth hcalls
  | arguments =>
      exact Moves.arguments_follows (Moves.Rules.within_follow hdepth hcalls).assignment

theorem read_accounts (p : Part α) (endLine room : Nat) (ts : List Token) :
    (p.read endLine room ts).Accounts endLine ts := by
  cases p with
  | production p => exact p.read_accounts endLine room ts
  | arguments =>
      exact Rule.arguments_accounts (Grammar.withRoom_accounted endLine room).assignment ts

theorem length_lt_iff_of_read (p : Part α) {a : α} (h : p.read endLine room ts = .ok a rest) :
    rest.length < ts.length ↔ p.TakesToken a := by
  cases p with
  | arguments => exact iff_of_true (Rule.length_lt_of_arguments h) trivial
  | production p =>
      cases p with
      | block =>
          obtain ⟨body, hbody, rfl⟩ := Outcome.map_eq_ok_iff.1 h
          exact Rule.length_lt_iff_of_statements hbody
      | braced line =>
          obtain ⟨body, hbody, rfl⟩ := Outcome.map_eq_ok_iff.1 h
          exact iff_of_true (Grammar.length_lt_of_braced hbody) trivial
      | statement | assignment | logical | comparison | additive | multiplicative | factor =>
          exact iff_of_true (Rule.progress _ h) trivial

end Part

namespace Outcome

/-- What has been used. -/
theorem Accounts.exists_used {α : Type} {endLine : Nat} {ts : List Token} {o : Outcome α}
    (h : Accounts endLine ts o) :
    ∃ used, ts = used ++ o.rest ∧ ∀ t ∈ used, t.kind ≠ .eof := by
  cases h with
  | ok hused => exact ⟨_, rfl, hused⟩
  | error hused => exact ⟨_, rfl, hused⟩

end Outcome

namespace Cursor

variable {α : Type} {c : Cursor}

theorem before_rest (h : c.position ≤ c.tokens.length) : before c.tokens c.depth c.rest = c := by
  have hposition : c.tokens.length - c.rest.length = c.position := by
    rw [rest, List.length_drop]
    omega
  exact congrArg (fun position => Cursor.mk c.tokens position c.depth) hposition

theorem readPart_eq (p : Part α) (c : Cursor) :
    c.readPart p =
      let o := p.read (endLine c.tokens) (nestingLimit - c.depth) c.rest
      (o.result, before c.tokens c.depth o.rest) := by
  cases p <;> rfl

/-- Limits that are large enough for the tokens left and for the levels left are not felt. -/
theorem run_moves (p : Part α) (hposition : c.position ≤ c.tokens.length) (hdepth : c.depth ≤ 128)
    {turns calls : Nat} (hturns : c.rest.length < turns) (hcalls : 128 - c.depth < calls) :
    (p.moves turns calls).run.run c = .ok (c.readPart p) := by
  have hmakes := p.moves_follow hdepth hcalls c.rest ⟨List.drop_suffix c.position c.tokens, hturns⟩
  have hrun := hmakes.run_eq
  rwa [before_rest hposition, ← readPart_eq] at hrun

/-- The cursor goes over some tokens, none of which is an `eof`, and the levels stay as they are. -/
theorem exists_used_of_readPart (p : Part α) (hposition : c.position ≤ c.tokens.length) :
    ∃ used, used <+: c.rest ∧ (∀ t ∈ used, t.kind ≠ .eof) ∧
      (c.readPart p).2 = { c with position := c.position + used.length } ∧
      ∀ a, (c.readPart p).1 = .ok a → (0 < used.length ↔ p.TakesToken a) := by
  obtain ⟨used, hused, heof⟩ :=
    (p.read_accounts (endLine c.tokens) (nestingLimit - c.depth) c.rest).exists_used
  have hprogress : ∀ a rest, p.read (endLine c.tokens) (nestingLimit - c.depth) c.rest = .ok a rest →
      (rest.length < c.rest.length ↔ p.TakesToken a) :=
    fun a rest => p.length_lt_iff_of_read
  rw [readPart_eq]
  generalize p.read (endLine c.tokens) (nestingLimit - c.depth) c.rest = o at hused hprogress
  have hlength : c.tokens.length - c.position = used.length + o.rest.length := by
    rw [← List.length_append, ← hused]
    exact List.length_drop.symm
  refine ⟨used, ⟨o.rest, hused.symm⟩, heof, ?_, fun a ha => ?_⟩
  · have hplace : c.tokens.length - o.rest.length = c.position + used.length := by omega
    exact congrArg (fun position => Cursor.mk c.tokens position c.depth) hplace
  · cases o with
    | error e rest => cases ha
    | ok a' rest =>
        obtain rfl := Except.ok.inj ha
        rw [← hprogress a' rest rfl, hused, List.length_append]
        exact Nat.lt_add_left_iff_pos.symm

end Cursor

/-- Whatever part is read at a cursor, its moves come to an end, with a result or an error: no level is closed
that is not open, no loop goes round more often than there are tokens left and once more, and no more rules
are under way inside each other than levels can be opened and one more. The cursor is left with as many levels
open as before. It has gone forward and not beyond the end, over tokens that are no `eof`, and after a success
it is further than before, unless an empty block has been read. -/
theorem Part.moves_forward {α : Type} (p : Part α) {c : Cursor}
    (hposition : c.position ≤ c.tokens.length) (hdepth : c.depth ≤ 128) :
    let r := c.readPart p
    (∀ turns calls, c.tokens.length - c.position < turns → 128 - c.depth < calls →
      (p.moves turns calls).run.run c = .ok r) ∧
    r.2.tokens = c.tokens ∧ r.2.depth = c.depth ∧
    c.position ≤ r.2.position ∧ r.2.position ≤ c.tokens.length ∧
    (∀ a, r.1 = .ok a → (c.position < r.2.position ↔ p.TakesToken a)) ∧
    ∀ t ∈ (c.tokens.take r.2.position).drop c.position, t.kind ≠ .eof := by
  intro r
  have hlength : c.rest.length = c.tokens.length - c.position := List.length_drop
  obtain ⟨used, hprefix, heof, hcursor, hprogress⟩ := Cursor.exists_used_of_readPart p hposition
  have hle := hprefix.length_le
  refine ⟨fun turns calls hturns hcalls =>
    Cursor.run_moves p hposition hdepth (hlength ▸ hturns) hcalls, ?_⟩
  rw [hcursor]
  refine ⟨rfl, rfl, Nat.le_add_right _ _, ?_, fun a ha => ?_, ?_⟩
  · change c.position + used.length ≤ _
    omega
  · rw [← hprogress a ha]
    exact Nat.lt_add_right_iff_pos
  · have htake : used = (c.tokens.drop c.position).take used.length :=
      List.prefix_iff_eq_take.1 hprefix
    rw [List.drop_take, Nat.add_sub_cancel_left, ← htake]
    exact heof

/-- The second of two arguments has a parenthesis in a prefix operator, for which a level too many would have
to be opened. Before that the cursor has gone past the name in front of the comparison and come back, and the
level that the operator has opened is closed again. -/
theorem Part.moves_forward_too_deep :
    let ts : List Token := [⟨.identifier "f", 1⟩, ⟨.leftParen, 1⟩, ⟨.integer 1, 1⟩, ⟨.comma, 1⟩,
      ⟨.identifier "x", 2⟩, ⟨.equal, 2⟩, ⟨.minus, 2⟩, ⟨.leftParen, 3⟩, ⟨.integer 2, 3⟩,
      ⟨.rightParen, 3⟩, ⟨.rightParen, 4⟩]
    let c : Cursor := ⟨ts, 2, 127⟩
    c.position ≤ c.tokens.length ∧ c.depth ≤ 128 ∧
      (∀ turns calls, 9 < turns → 1 < calls → (arguments.moves turns calls).run.run c =
        .ok (.error (.nestingTooDeep 128 3), ⟨ts, 8, 127⟩)) ∧
      ∀ t ∈ (ts.take 8).drop 2, t.kind ≠ .eof := by
  intro ts c
  have hposition : c.position ≤ c.tokens.length := by decide
  have hdepth : c.depth ≤ 128 := by decide
  have hread : c.readPart arguments = (.error (.nestingTooDeep 128 3), ⟨ts, 8, 127⟩) := by
    with_unfolding_all rfl
  obtain ⟨hmoves, -, -, -, -, -, heof⟩ := moves_forward arguments hposition hdepth
  rw [hread] at hmoves heof
  exact ⟨hposition, hdepth, hmoves, heof⟩

end Abacus
