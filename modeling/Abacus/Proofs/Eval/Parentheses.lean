import Abacus.Proofs.Eval.Simulation

/-!
Parentheses are kept in the tree, but they change nothing: a tree with parentheses around some more of its
expressions does what the tree without them does, step by step, and its parts are on the same lines.
-/
namespace Abacus

namespace Expr

mutual

/-- The second expression is the first with parentheses put around some of its parts, or around the
whole, any number of times. -/
inductive Wraps : Expr → Expr → Prop where
  | parentheses {e e' : Expr} : Wraps e e' → Wraps e (group e')
  | number (line : Nat) (value : Float) : Wraps (number line value) (number line value)
  | name (line : Nat) (x : String) : Wraps (name line x) (name line x)
  | negate {line : Nat} {e e' : Expr} : Wraps e e' → Wraps (negate line e) (negate line e')
  | not {line : Nat} {e e' : Expr} : Wraps e e' → Wraps (not line e) (not line e')
  | group {e e' : Expr} : Wraps e e' → Wraps (group e) (group e')
  | call {line : Nat} {f : String} {es es' : List Expr} :
      WrapsAll es es' → Wraps (call line f es) (call line f es')
  | binary {line : Nat} {op : BinOp} {left left' right right' : Expr} :
      Wraps left left' → Wraps right right' →
        Wraps (binary line op left right) (binary line op left' right')
  | assign {line : Nat} {x : String} {e e' : Expr} :
      Wraps e e' → Wraps (assign line x e) (assign line x e')

inductive WrapsAll : List Expr → List Expr → Prop where
  | nil : WrapsAll [] []
  | cons {e e' : Expr} {es es' : List Expr} :
      Wraps e e' → WrapsAll es es' → WrapsAll (e :: es) (e' :: es')

end

theorem Wraps.line_eq {e e' : Expr} (h : e.Wraps e') : e'.line = e.line := by
  cases h with
  | parentheses h | group h => exact h.line_eq
  | number | name | negate | not | call | binary | assign => rfl

mutual

theorem Wraps.eval_eq {e e' : Expr} (h : e.Wraps e') : e'.eval = e.eval := by
  cases h with
  | number | name => rfl
  | parentheses h => exact h.eval_eq
  | group h => exact h.eval_eq
  | negate h | not h | assign h => simp only [eval, h.eval_eq]
  | call h => simp only [eval, h.evalAll_eq]
  | binary hl hr => simp only [eval, hl.eval_eq, hr.eval_eq]

theorem WrapsAll.evalAll_eq {es es' : List Expr} (h : WrapsAll es es') :
    evalAll es' = evalAll es := by
  cases h with
  | nil => rfl
  | cons h hs => simp only [evalAll, h.eval_eq, hs.evalAll_eq]

end

end Expr

namespace Statement

mutual

/-- The second statement is the first with parentheses put around some of its expressions. -/
inductive Wraps : Statement → Statement → Prop where
  | declare {line : Nat} {x : String} {e e' : Expr} :
      e.Wraps e' → Wraps (declare line x e) (declare line x e')
  | expression {e e' : Expr} : e.Wraps e' → Wraps (expression e) (expression e')
  | block {line : Nat} {body body' : List Statement} :
      WrapsAll body body' → Wraps (block line body) (block line body')

inductive WrapsAll : List Statement → List Statement → Prop where
  | nil : WrapsAll [] []
  | cons {s s' : Statement} {rest rest' : List Statement} :
      Wraps s s' → WrapsAll rest rest' → WrapsAll (s :: rest) (s' :: rest')

end

theorem Wraps.line_eq {s s' : Statement} (h : s.Wraps s') : s'.line = s.line := by
  cases h with
  | expression h => exact h.line_eq
  | declare | block => rfl

mutual

theorem Wraps.eval_eq {s s' : Statement} (h : s.Wraps s') : s'.eval = s.eval := by
  cases h with
  | declare h | expression h => simp only [eval, h.eval_eq]
  | block h => simp only [eval, h.evalFrom_eq]

theorem WrapsAll.evalFrom_eq {body body' : List Statement} (h : WrapsAll body body')
    (last : Option Value) : evalFrom last body' = evalFrom last body := by
  cases h with
  | nil => rfl
  | cons h hs => simp only [evalFrom, h.eval_eq, hs.evalFrom_eq]

end

end Statement

/-- The second program is the first with parentheses put around some of its expressions. -/
structure Block.Wraps (b b' : Block) : Prop where
  line_eq : b'.line = b.line
  statements : Statement.WrapsAll b.statements b'.statements

theorem Block.Wraps.evalProgram_eq {b b' : Block} (h : b.Wraps b') :
    b'.evalProgram = b.evalProgram :=
  h.statements.evalFrom_eq none

/-- More parentheses change neither the value or error of an evaluation nor the world that it leaves, and
no line. -/
theorem Eval.eval_wraps (w : World) :
    (∀ e e' : Expr, e.Wraps e' → e'.eval w = e.eval w ∧ e'.line = e.line) ∧
    (∀ es es' : List Expr, Expr.WrapsAll es es' → Expr.evalAll es' w = Expr.evalAll es w) ∧
    (∀ s s' : Statement, s.Wraps s' → s'.eval w = s.eval w ∧ s'.line = s.line) ∧
    (∀ b b' : Block, b.Wraps b' →
      b'.evalProgram w = b.evalProgram w ∧ b'.evalScoped w = b.evalScoped w ∧ b'.line = b.line) := by
  refine ⟨fun e e' h => ⟨congrFun h.eval_eq w, h.line_eq⟩,
    fun es es' h => congrFun h.evalAll_eq w,
    fun s s' h => ⟨congrFun h.eval_eq w, h.line_eq⟩, fun b b' h => ?_⟩
  have hprogram : b'.evalProgram = b.evalProgram := h.evalProgram_eq
  refine ⟨congrFun hprogram w, ?_, h.line_eq⟩
  rw [Block.evalScoped, Block.evalScoped, hprogram]

/-- Parentheses around an initializer and, in an inner block, around an argument of a call, a whole
assignment and an operand that fails. -/
theorem Eval.eval_wraps_nested :
    let b : Block := ⟨1, [
      .declare 1 "x" (.number 1 2),
      .block 2 [
        .expression (.assign 2 "x" (.call 2 "sqrt" [.name 2 "x"])),
        .expression (.binary 3 .add (.name 3 "x") (.name 4 "y"))]]⟩
    let b' : Block := ⟨1, [
      .declare 1 "x" (.group (.number 1 2)),
      .block 2 [
        .expression (.group (.assign 2 "x" (.call 2 "sqrt" [.group (.name 2 "x")]))),
        .expression (.binary 3 .add (.name 3 "x") (.group (.group (.name 4 "y"))))]]⟩
    b.Wraps b' ∧ b'.evalProgram (.start .withBuiltins) = b.evalProgram (.start .withBuiltins) := by
  intro b b'
  have hassign : (Expr.assign 2 "x" (.call 2 "sqrt" [.name 2 "x"])).Wraps
      (.assign 2 "x" (.call 2 "sqrt" [.group (.name 2 "x")])) :=
    .assign (.call (.cons (.parentheses (.name 2 "x")) .nil))
  have hsum : (Expr.binary 3 .add (.name 3 "x") (.name 4 "y")).Wraps
      (.binary 3 .add (.name 3 "x") (.group (.group (.name 4 "y")))) :=
    .binary (.name 3 "x") (.parentheses (.parentheses (.name 4 "y")))
  have hinner := Statement.WrapsAll.cons (.expression (.parentheses hassign))
    (.cons (.expression hsum) .nil)
  have h : b.Wraps b' :=
    ⟨rfl, .cons (.declare (.parentheses (.number 1 2))) (.cons (.block hinner) .nil)⟩
  exact ⟨h, ((eval_wraps (.start .withBuiltins)).2.2.2 b b' h).1⟩

end Abacus
