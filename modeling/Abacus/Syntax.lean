import Abacus.Token

/-!
Syntax trees. Every expression is one type; which operator may stand under which is a matter of
levels, and parentheses are kept as nodes of their own. Each node carries the line of the token
that stands for it, except parentheses and expression statements, which take theirs from inside.
-/
namespace Abacus

/-- The binary operators bind on four levels, from loosest to tightest. -/
inductive Level where
  | logical
  | comparison
  | additive
  | multiplicative
deriving DecidableEq, Repr

inductive BinOp where
  | and
  | or
  | equal
  | notEqual
  | less
  | greater
  | add
  | sub
  | mul
  | div
deriving DecidableEq, Repr

namespace BinOp

def level : BinOp → Level
  | and | or => .logical
  | equal | notEqual | less | greater => .comparison
  | add | sub => .additive
  | mul | div => .multiplicative

/-- The token that spells an operator. -/
def kind : BinOp → Token.Kind
  | and => .and
  | or => .or
  | equal => .equal
  | notEqual => .notEqual
  | less => .less
  | greater => .greater
  | add => .plus
  | sub => .minus
  | mul => .star
  | div => .slash

def text (op : BinOp) : String :=
  op.kind.text

end BinOp

/-- The binary operator that a token spells. -/
def Token.Kind.binOp? : Token.Kind → Option BinOp
  | .and => some .and
  | .or => some .or
  | .equal => some .equal
  | .notEqual => some .notEqual
  | .less => some .less
  | .greater => some .greater
  | .plus => some .add
  | .minus => some .sub
  | .star => some .mul
  | .slash => some .div
  | _ => none

theorem Token.Kind.binOp?_eq_some_iff {kind : Token.Kind} {op : BinOp} :
    kind.binOp? = some op ↔ kind = op.kind := by
  constructor
  · intro h
    cases kind <;> simp only [binOp?, Option.some.injEq, reduceCtorEq] at h <;> subst h <;> rfl
  · rintro rfl
    cases op <;> rfl

inductive Expr where
  | number (line : Nat) (value : Float)
  | name (line : Nat) (name : String)
  | negate (line : Nat) (operand : Expr)
  | not (line : Nat) (operand : Expr)
  | group (inner : Expr)
  | call (line : Nat) (name : String) (arguments : List Expr)
  | binary (line : Nat) (op : BinOp) (left right : Expr)
  | assign (line : Nat) (name : String) (value : Expr)

namespace Expr

/-- Induction over expressions, with a hypothesis for each argument of a call. -/
@[elab_as_elim, induction_eliminator]
theorem induct {motive : Expr → Prop}
    (number : ∀ line value, motive (.number line value))
    (name : ∀ line name, motive (.name line name))
    (negate : ∀ line operand, motive operand → motive (.negate line operand))
    (not : ∀ line operand, motive operand → motive (.not line operand))
    (group : ∀ inner, motive inner → motive (.group inner))
    (call : ∀ line name arguments, (∀ a ∈ arguments, motive a) →
      motive (.call line name arguments))
    (binary : ∀ line op left right, motive left → motive right →
      motive (.binary line op left right))
    (assign : ∀ line name value, motive value → motive (.assign line name value)) :
    ∀ e, motive e
  | .number line value => number line value
  | .name line x => name line x
  | .negate line e => negate line e (induct number name negate not group call binary assign e)
  | .not line e => not line e (induct number name negate not group call binary assign e)
  | .group e => group e (induct number name negate not group call binary assign e)
  | .call line f arguments =>
    call line f arguments fun a _ => induct number name negate not group call binary assign a
  | .binary line op l r =>
    binary line op l r (induct number name negate not group call binary assign l)
      (induct number name negate not group call binary assign r)
  | .assign line x e =>
    assign line x e (induct number name negate not group call binary assign e)

/-- The line of an expression: that of its operator, name or number. -/
def line : Expr → Nat
  | number line _ | name line _ | negate line _ | not line _ | call line _ _ | binary line _ _ _
  | assign line _ _ => line
  | group inner => inner.line

end Expr

inductive Statement where
  | declare (line : Nat) (name : String) (initializer : Expr)
  | expression (value : Expr)
  | block (line : Nat) (body : List Statement)

namespace Statement

/-- Induction over statements, with a hypothesis for each statement of a block. -/
@[elab_as_elim, induction_eliminator]
theorem induct {motive : Statement → Prop}
    (declare : ∀ line name initializer, motive (.declare line name initializer))
    (expression : ∀ value, motive (.expression value))
    (block : ∀ line body, (∀ s ∈ body, motive s) → motive (.block line body)) :
    ∀ s, motive s
  | .declare line name e => declare line name e
  | .expression e => expression e
  | .block line body => block line body fun s _ => induct declare expression block s

/-- The line of a statement: that of its `var`, its expression or its brace. -/
def line : Statement → Nat
  | declare line _ _ | block line _ => line
  | expression value => value.line

end Statement

/-- A list of statements and the line it starts on: a program, or what stands between braces. -/
structure Block where
  line : Nat
  statements : List Statement

end Abacus
