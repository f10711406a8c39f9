import Abacus.Proofs.Syntax.Completeness
import Abacus.Proofs.Syntax.Soundness

/-!
How deep evaluation goes. An expression is evaluated level by level: an assignment, the four levels of
operators from the loosest to the tightest, and a factor, each of which is a call, and each operand is
evaluated from its own level on inside these. So the calls that can be active at once are a measure of
the tree. The limit on nesting bounds how often evaluation starts again at the loosest level, and what
is left is a matter of the chains of operators: a left operand of the same level is one call further
down, and no limit is set to the length of a chain.
-/
namespace Abacus

namespace Expr

mutual

/-- The largest number of calls that are active at once when an expression is evaluated from the given
level: one for each level down to that of its outermost part, and those for one of its operands. The
levels are counted as by `tightness`. -/
def height (level : Nat) : Expr → Nat
  | number _ _ | name _ _ => 6 - level
  | negate _ operand | not _ operand => 6 - level + operand.height 5
  | group inner => 6 - level + inner.height 0
  | call _ _ arguments => 6 - level + heightAll arguments
  | binary _ op left right =>
    op.level.rank + 1 - level + max (left.height op.level.rank) (right.height (op.level.rank + 1))
  | assign _ _ value => 1 - level + value.height 0

def heightAll : List Expr → Nat
  | [] => 0
  | e :: es => max (e.height 0) (heightAll es)

end

/-- The number of operators of one level that are applied one after the other, the last of them at the
root. -/
def run (level : Level) : Expr → Nat
  | binary _ op left _ => if op.level = level then left.run level + 1 else 0
  | _ => 0

mutual

/-- The length of the longest chain of operators of one level in an expression. -/
def chain : Expr → Nat
  | number _ _ | name _ _ => 0
  | negate _ e | not _ e | group e | assign _ _ e => e.chain
  | call _ _ arguments => chainAll arguments
  | binary _ op left right => max (left.run op.level + 1) (max left.chain right.chain)

def chainAll : List Expr → Nat
  | [] => 0
  | e :: es => max e.chain (chainAll es)

end

end Expr

namespace Statement

mutual

/-- The largest number of calls that are active at once when a statement is evaluated. -/
def height : Statement → Nat
  | declare _ _ e | expression e => e.height 0
  | block _ body => heightAll body + 1

def heightAll : List Statement → Nat
  | [] => 0
  | s :: rest => max s.height (heightAll rest)

end

mutual

def chain : Statement → Nat
  | declare _ _ e | expression e => e.chain
  | block _ body => chainAll body

def chainAll : List Statement → Nat
  | [] => 0
  | s :: rest => max s.chain (chainAll rest)

end

end Statement

def Block.height (b : Block) : Nat :=
  Statement.heightAll b.statements

def Block.chain (b : Block) : Nat :=
  Statement.chainAll b.statements

/-- The most calls from a level down to a factor, if no chain is longer than `n`. -/
def callsFrom (n : Nat) : Nat → Nat
  | 0 => 4 * n + 6
  | 1 => 4 * n + 5
  | 2 => 3 * n + 4
  | 3 => 2 * n + 3
  | 4 => n + 2
  | 5 => 1
  | _ => 0

variable {n level : Nat}

theorem callsFrom_succ_lt (h : level ≤ 5) : callsFrom n (level + 1) < callsFrom n level := by
  match level, h with
  | 0, _ | 1, _ | 2, _ | 3, _ | 4, _ | 5, _ => simp only [callsFrom]; omega

theorem callsFrom_le {tight : Nat} (h : level ≤ tight) (ht : tight ≤ 5) :
    tight - level + callsFrom n tight ≤ callsFrom n level := by
  induction h with
  | refl => omega
  | @step tight h ih =>
      have hle := ih (by omega)
      have hlt := callsFrom_succ_lt (n := n) (by omega : tight ≤ 5)
      simp only [Nat.succ_eq_add_one]
      omega

theorem callsFrom_rank (level : Level) (n : Nat) :
    callsFrom n level.rank = n + 1 + callsFrom n (level.rank + 1) := by
  cases level <;> simp only [Level.rank, callsFrom] <;> omega

namespace Expr

variable {e : Expr}

theorem tightness_le (e : Expr) : e.tightness ≤ 5 := by
  cases e with
  | binary _ op _ _ => exact Nat.le_of_lt op.level.rank_lt
  | assign _ _ _ => exact Nat.zero_le 5
  | _ => exact Nat.le_refl 5

/-- Evaluation goes through the levels above that of the outermost part. -/
theorem height_eq (h : level ≤ e.tightness) :
    e.height level = e.tightness - level + e.height e.tightness := by
  cases e <;> simp only [height, tightness] at h ⊢ <;> omega

theorem height_pos (h : level ≤ e.tightness) : 0 < e.height level := by
  cases e <;> simp only [height, tightness] at h ⊢ <;> omega

/-- The length of the chain that an expression ends, if its outermost part is an operator. -/
def ownRun : Expr → Nat
  | binary _ op left _ => left.run op.level + 1
  | _ => 0

theorem ownRun_eq_run {op : Level} (h : e.tightness = op.rank) : e.ownRun = e.run op := by
  cases e with
  | binary _ op' _ _ =>
      obtain rfl : op'.level = op := Level.rank_injective h
      simp [ownRun, run]
  | assign _ _ _ => exact absurd h (Nat.ne_of_lt op.rank_pos)
  | _ => exact absurd h (Nat.ne_of_gt op.rank_lt)

theorem ownRun_add_le (h : e.chain ≤ n) :
    e.ownRun + 1 + callsFrom n (e.tightness + 1) ≤ callsFrom n e.tightness := by
  cases e with
  | binary _ op left right =>
      have hrun : left.run op.level + 1 ≤ n := Nat.le_trans (Nat.le_max_left _ _) h
      simp only [ownRun, tightness, callsFrom_rank]
      omega
  | _ => simp only [ownRun, tightness, callsFrom]; omega

/-- A bound for the calls from the outermost part on, in terms of the chain that ends there, bounds
the calls from every level on. -/
theorem height_le_of_own {k : Nat} (hc : e.chain ≤ n) (hl : level ≤ e.tightness)
    (h : e.height e.tightness ≤ e.ownRun + 1 + callsFrom n (e.tightness + 1) + k) :
    e.height level ≤ callsFrom n level + k := by
  have hheight := height_eq hl
  have hown := ownRun_add_le hc
  have hcalls := callsFrom_le (n := n) hl e.tightness_le
  omega

theorem heightAll_le {es : List Expr} (hl : LayeredAll es) (hc : chainAll es ≤ n)
    (h : ∀ e ∈ es, e.Layered → e.chain ≤ n →
      e.height 0 ≤ callsFrom n 0 + e.nest * callsFrom n 0) :
    heightAll es ≤ callsFrom n 0 + nestAll es * callsFrom n 0 := by
  induction es with
  | nil => exact Nat.zero_le _
  | cons e es ih =>
      obtain ⟨hle, hles⟩ := hl
      obtain ⟨hce, hces⟩ := Nat.max_le.1 hc
      have he := h e List.mem_cons_self hle hce
      have hes := ih hles hces fun a ha => h a (List.mem_cons_of_mem _ ha)
      simp only [heightAll, nestAll, ← Nat.mul_max_mul_right]
      omega

/-- The calls from the outermost part of an expression on. One call is its own, and what it leads to
starts again at the loosest level where the expression opens a level of nesting, at its own level in
the left operand of an operator, and at the next level in the right one. -/
theorem height_tightness_le (hl : e.Layered) (hc : e.chain ≤ n) :
    e.height e.tightness ≤
      e.ownRun + 1 + callsFrom n (e.tightness + 1) + e.nest * callsFrom n 0 := by
  induction e with
  | number _ _ | name _ _ => simp [height, tightness, ownRun, nest, callsFrom]
  | negate _ a ih | not _ a ih =>
      have hoperand := height_le_of_own (e := a) hc hl.2 (ih hl.1 hc)
      have hcalls := callsFrom_le (n := n) (Nat.zero_le 5) (Nat.le_refl 5)
      simp only [height, tightness, ownRun, nest, Nat.succ_mul]
      omega
  | group a ih | assign _ _ a ih =>
      have hinner := height_le_of_own (e := a) hc (Nat.zero_le _) (ih hl hc)
      simp only [height, tightness, ownRun, nest, Nat.succ_mul]
      omega
  | call _ _ as ih =>
      have harguments := heightAll_le hl hc fun a ha hl hc =>
        height_le_of_own hc (Nat.zero_le _) (ih a ha hl hc)
      simp only [height, tightness, ownRun, nest, Nat.succ_mul]
      omega
  | binary _ op left right ihl ihr =>
      obtain ⟨hll, hlr, htl, (htr : op.level.rank + 1 ≤ right.tightness)⟩ := hl
      obtain ⟨hrun, hc⟩ := Nat.max_le.1 hc
      obtain ⟨hcl, hcr⟩ := Nat.max_le.1 hc
      have hright := height_le_of_own hcr htr (ihr hlr hcr)
      -- A left operand of the same level carries the chain on, every other one starts at the next.
      have hleft : left.height op.level.rank ≤ left.run op.level + 1 +
          callsFrom n (op.level.rank + 1) + left.nest * callsFrom n 0 := by
        rcases Nat.eq_or_lt_of_le htl with heq | (hlt : op.level.rank + 1 ≤ left.tightness)
        · have hsame := ihl hll hcl
          rwa [ownRun_eq_run heq.symm, ← heq] at hsame
        · have hnext := height_le_of_own hcl hlt (ihl hll hcl)
          have hfrom := height_eq htl
          have hfrom' := height_eq hlt
          omega
      simp only [height, tightness, ownRun, nest, ← Nat.mul_max_mul_right]
      omega

theorem height_le (hl : e.Layered) (hc : e.chain ≤ n) :
    e.height 0 ≤ callsFrom n 0 + e.nest * callsFrom n 0 :=
  height_le_of_own hc (Nat.zero_le _) (height_tightness_le hl hc)

/-- A chain is evaluated with one call inside the other. -/
theorem run_lt_height {op : Level} (hl : e.Layered) (ht : op.rank ≤ e.tightness) :
    e.run op < e.height op.rank := by
  induction e with
  | binary _ op' left right ih _ =>
      obtain ⟨hll, -, htl, -⟩ := hl
      by_cases h : op'.level = op
      · subst h
        have hleft := ih hll htl
        simp only [run, height, if_true]
        omega
      · simpa only [run, if_neg h] using height_pos ht
  | _ => exact height_pos ht

theorem chainAll_le_heightAll {es : List Expr} (hl : LayeredAll es)
    (h : ∀ e ∈ es, e.Layered → e.chain ≤ e.height 0) : chainAll es ≤ heightAll es := by
  induction es with
  | nil => exact Nat.le_refl 0
  | cons e es ih =>
      have he := h e List.mem_cons_self hl.1
      have hes := ih hl.2 fun a ha => h a (List.mem_cons_of_mem _ ha)
      simp only [chainAll, heightAll]
      omega

theorem chain_le_height (hl : e.Layered) (ht : level ≤ e.tightness) : e.chain ≤ e.height level := by
  induction e generalizing level with
  | number _ _ | name _ _ => exact Nat.zero_le _
  | negate _ a ih | not _ a ih =>
      exact Nat.le_add_left_of_le (ih hl.1 hl.2)
  | group a ih | assign _ _ a ih => exact Nat.le_add_left_of_le (ih hl (Nat.zero_le _))
  | call _ _ as ih =>
      exact Nat.le_add_left_of_le
        (chainAll_le_heightAll hl fun a ha hl => ih a ha hl (Nat.zero_le _))
  | binary _ op left right ihl ihr =>
      obtain ⟨hll, hlr, htl, (htr : op.level.rank + 1 ≤ right.tightness)⟩ := hl
      have hrun := run_lt_height hll htl
      have hleft := ihl hll htl
      have hright := ihr hlr htr
      simp only [tightness] at ht
      simp only [chain, height]
      omega

end Expr

namespace Statement

mutual

theorem height_le (s : Statement) (hl : s.Layered) (hc : s.chain ≤ n) :
    s.height ≤ callsFrom n 0 + s.nest * callsFrom n 0 := by
  cases s with
  | declare _ _ e | expression e => exact Expr.height_le hl hc
  | block _ body =>
      have hbody := heightAll_le body hl hc
      have hcalls := callsFrom_le (n := n) (Nat.zero_le 5) (Nat.le_refl 5)
      simp only [height, nest, Nat.succ_mul]
      omega

theorem heightAll_le (body : List Statement) (hl : LayeredAll body) (hc : chainAll body ≤ n) :
    heightAll body ≤ callsFrom n 0 + nestAll body * callsFrom n 0 := by
  cases body with
  | nil => exact Nat.zero_le _
  | cons s rest =>
      obtain ⟨hcs, hcr⟩ := Nat.max_le.1 hc
      have hs := height_le s hl.1 hcs
      have hrest := heightAll_le rest hl.2 hcr
      simp only [heightAll, nestAll, ← Nat.mul_max_mul_right]
      omega

end

mutual

theorem chain_le_height (s : Statement) (hl : s.Layered) : s.chain ≤ s.height := by
  cases s with
  | declare _ _ e | expression e => exact Expr.chain_le_height hl (Nat.zero_le _)
  | block _ body => exact Nat.le_succ_of_le (chainAll_le_heightAll body hl)

theorem chainAll_le_heightAll (body : List Statement) (hl : LayeredAll body) :
    chainAll body ≤ heightAll body := by
  cases body with
  | nil => exact Nat.le_refl 0
  | cons s rest =>
      have hs := chain_le_height s hl.1
      have hrest := chainAll_le_heightAll rest hl.2
      simp only [chainAll, heightAll]
      omega

end

end Statement

/-- The calls that are active at once when a program is evaluated are bounded by the longest chain of
operators in it, with a factor that the limit on nesting gives. They are at least as many as the chain
is long, and no limit is set to that. -/
theorem Block.height_le_of_parse {ts : List Token} {b : Block} (h : parse ts = .ok b) :
    b.chain ≤ b.height ∧ b.height ≤ 129 * (4 * b.chain + 6) := by
  obtain ⟨-, tail, -, hbody⟩ := parse_eq_ok_iff.1 h
  obtain ⟨hall, -⟩ := Rule.statements_sound (Grammar.withRoom_sound _ _).statement hbody
  refine ⟨Statement.chainAll_le_heightAll _ hall.layered, ?_⟩
  have hnest : b.nest ≤ 128 := hall.nest_le
  calc b.height
      ≤ callsFrom b.chain 0 + b.nest * callsFrom b.chain 0 :=
        Statement.heightAll_le _ hall.layered (Nat.le_refl _)
    _ ≤ callsFrom b.chain 0 + 128 * callsFrom b.chain 0 :=
        Nat.add_le_add_left (Nat.mul_le_mul_right _ hnest) _
    _ = 129 * (4 * b.chain + 6) := by simp only [callsFrom]; omega

theorem Block.height_le_of_parse_nested :
    let ts : List Token := [⟨.leftBrace, 1⟩, ⟨.identifier "x", 1⟩, ⟨.assign, 1⟩, ⟨.integer 1, 1⟩,
      ⟨.plus, 1⟩, ⟨.integer 2, 1⟩, ⟨.minus, 1⟩, ⟨.leftParen, 1⟩, ⟨.integer 3, 1⟩, ⟨.star, 1⟩,
      ⟨.minus, 1⟩, ⟨.integer 4, 1⟩, ⟨.rightParen, 1⟩, ⟨.rightBrace, 2⟩, ⟨.eof, 2⟩]
    let b : Block := ⟨1, [.block 1 [.expression (.assign 1 "x" (.binary 1 .sub
      (.binary 1 .add (.number 1 1) (.number 1 2))
      (.group (.binary 1 .mul (.number 1 3) (.negate 1 (.number 1 4))))))]]⟩
    parse ts = .ok b ∧ b.chain = 2 ∧ b.height = 15 ∧
      (b.chain ≤ b.height ∧ b.height ≤ 129 * (4 * b.chain + 6)) := by
  intro ts b
  have h : parse ts = .ok b := by with_unfolding_all rfl
  exact ⟨h, by decide, by decide, height_le_of_parse h⟩

/-- The sum `1 + 1 + … + 1` with that many operators. -/
def Expr.ones : Nat → Expr
  | 0 => number 1 1
  | n + 1 => binary 1 .add (ones n) (number 1 1)

/-- The tokens of `Expr.ones`. -/
def Token.ones : Nat → List Token
  | 0 => [⟨.integer 1, 1⟩]
  | n + 1 => ones n ++ [⟨.plus, 1⟩, ⟨.integer 1, 1⟩]

theorem Expr.height_ones (n : Nat) (h : level ≤ 3) : (ones n).height level = n + 6 - level := by
  induction n generalizing level with
  | zero => simp only [ones, height, Nat.zero_add]
  | succ n ih =>
      have hleft := ih (Nat.le_refl 3)
      simp only [ones, height, BinOp.level, Level.rank] at hleft ⊢
      omega

theorem Expr.le_tightness_ones (n : Nat) : 3 ≤ (ones n).tightness := by
  cases n with
  | zero => decide
  | succ n => exact Nat.le_refl 3

theorem Expr.leads_ones (n room : Nat) (rest : List Token) :
    (ones n).Leads 0 room (Token.ones n ++ rest) rest := by
  refine ⟨?_, ?_, Nat.zero_le _, ?_⟩
  · induction n generalizing rest with
    | zero => exact .cons ⟨.inl rfl, rfl⟩ .nil
    | succ n ih =>
        rw [Token.ones, List.append_assoc]
        exact (ih _).append (.cons ⟨rfl, rfl⟩ (.cons ⟨.inl rfl, rfl⟩ .nil))
  · induction n with
    | zero => trivial
    | succ n ih => exact ⟨ih, trivial, le_tightness_ones n, by decide⟩
  · induction n with
    | zero => exact Nat.zero_le _
    | succ n ih => exact Nat.max_le.2 ⟨ih, Nat.zero_le _⟩

theorem Token.head?_ones (n : Nat) : (ones n).head? = some ⟨.integer 1, 1⟩ := by
  induction n with
  | zero => rfl
  | succ n ih => simp [ones, ih]

theorem parse_ones (n : Nat) :
    parse (Token.ones n ++ [⟨.eof, 1⟩]) = .ok ⟨1, [.expression (.ones n)]⟩ := by
  refine parse_eq_ok_iff.2 ⟨by simp [Token.head?_ones], [⟨.eof, 1⟩], .inr ⟨1, rfl⟩, ?_⟩
  apply Rule.statements_complete (Grammar.withRoom_complete _ _).statement
  · obtain ⟨hspells, hlayered, -, hnest⟩ := Expr.leads_ones n nestingLimit [⟨.eof, 1⟩]
    exact ⟨by simpa [Statement.yieldAll, Statement.yield] using hspells, ⟨hlayered, trivial⟩,
      ⟨trivial, by simp, trivial⟩, Nat.max_le.2 ⟨hnest, Nat.zero_le _⟩⟩
  · simp [Rule.endsStatements]

theorem Block.height_ones (n : Nat) : Block.height ⟨1, [.expression (.ones n)]⟩ = n + 6 :=
  (Nat.max_zero _).trans (Expr.height_ones n (Nat.zero_le 3))

/-- No bound holds for all programs: a sum of ones needs a call for each of its operators, and no
level of nesting. -/
theorem Block.not_exists_forall_height_le :
    (∃ b, parse (Token.ones 1999 ++ [⟨.eof, 1⟩]) = .ok b ∧ b.height = 2005) ∧
      ¬ ∃ k, ∀ ts b, parse ts = .ok b → b.height ≤ k := by
  refine ⟨⟨_, parse_ones 1999, height_ones 1999⟩, ?_⟩
  rintro ⟨k, h⟩
  have hle := h _ _ (parse_ones k)
  rw [height_ones] at hle
  omega

end Abacus
