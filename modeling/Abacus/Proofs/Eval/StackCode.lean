import Abacus.Proofs.Eval.Simulation

/-!
Evaluation as straight-line code. A program is written as a list of instructions for a stack of
operands: those of its operands from left to right, then its own. The instructions are executed one
after the other up to the first that fails, and then the scopes of the blocks that are still open are
closed. This is what evaluation does, so every part of a program is evaluated once, after its operands
and before what follows it, and no operator leaves out one of its operands.
-/
namespace Abacus

inductive Instr where
  | push (value : Float)
  | load (name : String) (line : Nat)
  | negate (line : Nat)
  | not
  | binary (op : BinOp) (line : Nat)
  /-- Looks a function up and calls it with as many of the latest operands. -/
  | call (name : String) (count line : Nat)
  /-- Assigns the latest operand, and leaves it. -/
  | store (name : String) (line : Nat)
  /-- Ends a declaration: binds the latest operand, which is the value of the statement. -/
  | declare (name : String) (line : Nat)
  /-- Ends an expression statement, of which the latest operand is the value. -/
  | finish
  | enter
  | leave

namespace Expr

mutual

/-- The instructions of an expression. -/
def code : Expr → List Instr
  | number _ value => [.push value]
  | name line x => [.load x line]
  | negate line operand => operand.code ++ [.negate line]
  | not _ operand => operand.code ++ [.not]
  | group inner => inner.code
  | call line f arguments => codeAll arguments ++ [.call f arguments.length line]
  | binary line op left right => left.code ++ (right.code ++ [.binary op line])
  | assign line x value => value.code ++ [.store x line]

def codeAll : List Expr → List Instr
  | [] => []
  | e :: es => e.code ++ codeAll es

end

end Expr

namespace Statement

mutual

def code : Statement → List Instr
  | declare line x initializer => initializer.code ++ [.declare x line]
  | expression value => value.code ++ [.finish]
  | block _ body => .enter :: (codeAll body ++ [.leave])

def codeAll : List Statement → List Instr
  | [] => []
  | s :: rest => s.code ++ codeAll rest

end

end Statement

def Block.code (b : Block) : List Instr :=
  Statement.codeAll b.statements

/-- What instructions work on, beside the world. -/
structure Machine where
  /-- The operands, the latest first. -/
  operands : List Value
  /-- The value of the last statement in the innermost block. -/
  last : Option Value
  /-- The number of blocks that are open. -/
  blocks : Nat

/-- How the execution of instructions ends. -/
inductive Halt where
  /-- All is done, by the execution of these instructions. -/
  | finished (executed : List Instr) (m : Machine) (w : World)
  | failed (e : RuntimeError) (w : World)
  /-- An operand or a block is missing. -/
  | stuck

/-- Closes a number of scopes. -/
def World.unwind : Nat → World → World
  | 0, w => w
  | n + 1, w => unwind n w.pop

namespace Machine

/-- No operands, and no block. -/
def start : Machine :=
  ⟨[], none, 0⟩

def push (m : Machine) (v : Value) : Machine :=
  { m with operands := v :: m.operands }

/-- Pushes values from the first to the last. -/
def pushAll (m : Machine) (vs : List Value) : Machine :=
  { m with operands := vs.reverse ++ m.operands }

/-- Takes a value as that of the last statement. -/
def withLast (m : Machine) (v : Option Value) : Machine :=
  { m with last := v }

/-- Puts the result of a computation in the place of some operands. -/
def put (m : Machine) (operands : List Value) (x : Eval Value) : Eval Machine := do
  let v ← x
  return { m with operands := v :: operands }

/-- What an instruction does, given the operands. -/
def step (m : Machine) : Instr → List Value → Option (Eval Machine)
  | .push value, vs => some (m.put vs (pure (.number value)))
  | .load x line, vs => some (m.put vs (Eval.lookup x line))
  | .negate line, v :: vs => some (m.put vs (Eval.lift (v.negate line)))
  | .not, v :: vs => some (m.put vs (pure v.not))
  | .binary op line, r :: l :: vs => some (m.put vs (Eval.lift (op.apply line l r)))
  | .call f count line, vs =>
    if count ≤ vs.length then
      some (m.put (vs.drop count) (Eval.call f (vs.take count).reverse line))
    else none
  | .store x line, v :: vs =>
    some (m.put vs do
      Eval.assign x v line
      return v)
  | .declare x line, v :: vs => some do
    Eval.declare x v line
    return { m with operands := vs, last := some v }
  | .finish, v :: vs => some (pure { m with operands := vs, last := some v })
  | .enter, _ => some do
    modify World.push
    return { m with last := none, blocks := m.blocks + 1 }
  | .leave, _ =>
    match m.blocks with
    | 0 => none
    | blocks + 1 => some do
      modify World.pop
      return { m with blocks := blocks }
  | _, _ => none

/-- Executes instructions up to the first that fails, given those that have been executed before, the
latest first. -/
def execFrom (done : List Instr) : List Instr → Machine → World → Halt
  | [], m, w => .finished done.reverse m w
  | i :: code, m, w =>
    match m.step i m.operands with
    | none => .stuck
    | some action =>
      match action w with
      | .ok m' w' => execFrom (i :: done) code m' w'
      | .error e w' => .failed e (w'.unwind m.blocks)

def exec (code : List Instr) (w : World) : Halt :=
  execFrom [] code start w

section Runs

variable {α β : Type} {m : Machine} {code : List Instr} {x : Eval α} {after : α → Machine}

/-- Instructions do what a computation does: they fail where it fails, and otherwise all of them are
executed and leave the machine that belongs to its result. -/
def Runs (m : Machine) (code : List Instr) (x : Eval α) (after : α → Machine) : Prop :=
  ∀ done rest w, execFrom done (code ++ rest) m w =
    match x w with
    | .ok a w' => execFrom (code.reverse ++ done) rest (after a) w'
    | .error e w' => .failed e (w'.unwind m.blocks)

theorem Runs.nil {a : α} (h : after a = m) : m.Runs [] (pure a) after := by
  subst h
  exact fun _ _ _ => rfl

theorem Runs.instr {i : Instr}
    (h : m.step i m.operands = some (x >>= fun a => pure (after a))) : m.Runs [i] x after := by
  intro done rest w
  rw [List.singleton_append, execFrom, h]
  dsimp only
  rw [Eval.bind_apply]
  cases x w <;> rfl

/-- The instructions of two computations, one after the other. No block is left open in between. -/
theorem Runs.append {more : List Instr} {next : α → Eval β} {final : β → Machine}
    (hx : m.Runs code x after) (hb : ∀ a, (after a).blocks = m.blocks)
    (hn : ∀ {a w u}, x w = .ok a u → (after a).Runs more (next a) final) :
    m.Runs (code ++ more) (x >>= next) final := by
  intro done rest w
  rw [List.append_assoc, hx, Eval.bind_apply]
  cases hr : x w with
  | error e u => rfl
  | ok a u =>
      dsimp only
      rw [hn hr, hb, List.reverse_append, List.append_assoc]

/-- The instructions of a block around those of its statements. -/
theorem Runs.block {x : Eval (Option Value)}
    (hx : Runs { m with last := none, blocks := m.blocks + 1 } code x
      (withLast { m with last := none, blocks := m.blocks + 1 })) :
    m.Runs (.enter :: (code ++ [.leave])) (Eval.inScope x) m.withLast := by
  intro done rest w
  have henter : execFrom done (.enter :: (code ++ [.leave]) ++ rest) m w =
      execFrom (.enter :: done) (code ++ (.leave :: rest))
        { m with last := none, blocks := m.blocks + 1 } w.push := by
    rw [List.cons_append, List.append_assoc]
    rfl
  have hdone : (Instr.enter :: (code ++ [.leave])).reverse ++ done =
      .leave :: (code.reverse ++ .enter :: done) := by simp
  rw [henter, hx, Eval.inScope, hdone]
  cases x w.push <;> rfl

/-- A result that is only looked at in another way needs no instruction. -/
theorem Runs.map {f : α → β} {final : β → Machine} (hx : m.Runs code x after)
    (hf : ∀ a, final (f a) = after a) : m.Runs code (x >>= fun a => pure (f a)) final := by
  intro done rest w
  rw [hx, Eval.bind_apply]
  cases x w with
  | error e u => rfl
  | ok a u =>
      change _ = execFrom _ rest (final (f a)) u
      rw [hf a]

end Runs

end Machine

open Machine Eval

namespace Expr

theorem length_of_evalAll {es : List Expr} {vs : List Value} {w u : World}
    (h : evalAll es w = .ok vs u) : vs.length = es.length := by
  induction es generalizing vs w with
  | nil =>
      cases h
      rfl
  | cons e es ih =>
      rw [evalAll] at h
      obtain ⟨v, u', -, h⟩ := bind_eq_ok_iff.1 h
      obtain ⟨vs', u'', hes, hvs⟩ := bind_eq_ok_iff.1 h
      cases hvs
      rw [List.length_cons, List.length_cons, ih hes]

theorem runs_codeAll {es : List Expr} (h : ∀ e ∈ es, ∀ m : Machine, m.Runs e.code e.eval m.push)
    (m : Machine) : m.Runs (codeAll es) (evalAll es) m.pushAll := by
  induction es generalizing m with
  | nil => exact .nil rfl
  | cons e es ih =>
      obtain ⟨he, hes⟩ := List.forall_mem_cons.1 h
      rw [codeAll, evalAll]
      refine (he m).append (fun _ => rfl) fun {v _ _} _ => (ih hes (m.push v)).map fun vs => ?_
      simp [pushAll, Machine.push]

theorem runs_code (e : Expr) (m : Machine) : m.Runs e.code e.eval m.push := by
  induction e generalizing m with
  | number line value =>
      rw [code, eval]
      exact .instr rfl
  | name line x =>
      rw [code, eval]
      exact .instr rfl
  | negate line e ih =>
      rw [code, eval]
      exact (ih m).append (fun _ => rfl) fun _ => .instr rfl
  | not line e ih =>
      rw [code, eval]
      exact (ih m).append (fun _ => rfl) fun _ => .instr rfl
  | group e ih =>
      rw [code, eval]
      exact ih m
  | call line f es ih =>
      rw [code, eval]
      refine (runs_codeAll ih m).append (fun _ => rfl) fun {vs _ _} hvs => .instr ?_
      simp [step, pushAll, put, Machine.push, ← length_of_evalAll hvs]
  | binary line op l r ihl ihr =>
      rw [code, eval]
      refine (ihl m).append (fun _ => rfl) fun {v _ _} _ => ?_
      exact (ihr (m.push v)).append (fun _ => rfl) fun _ => .instr rfl
  | assign line x e ih =>
      rw [code, eval]
      exact (ih m).append (fun _ => rfl) fun _ => .instr rfl

end Expr

namespace Statement

theorem runs_codeAll {body : List Statement}
    (h : ∀ s ∈ body, ∀ m : Machine, m.Runs s.code s.eval m.withLast) (m : Machine) :
    m.Runs (codeAll body) (evalFrom m.last body) m.withLast := by
  induction body generalizing m with
  | nil => exact .nil rfl
  | cons s body ih =>
      obtain ⟨hs, hbody⟩ := List.forall_mem_cons.1 h
      rw [codeAll, evalFrom]
      exact (hs m).append (fun _ => rfl) fun {v _ _} _ => ih hbody (m.withLast v)

theorem runs_code (s : Statement) (m : Machine) : m.Runs s.code s.eval m.withLast := by
  induction s generalizing m with
  | declare line x e =>
      rw [code, eval]
      refine (e.runs_code m).append (fun _ => rfl) fun _ => .instr ?_
      simp [step, Machine.push, withLast]
  | expression e =>
      rw [code, eval]
      exact (e.runs_code m).append (fun _ => rfl) fun _ => .instr rfl
  | block line body ih =>
      rw [code, eval]
      exact .block (runs_codeAll ih _)

end Statement

/-- Evaluating a program is executing its instructions. If it succeeds, each of them has been executed
once, in order, no operand is left and no block is open; if it fails, the first instruction that fails
has ended the execution, and the scopes of the open blocks have been closed. -/
theorem Block.exec_code (b : Block) (w : World) :
    Machine.exec b.code w =
      match b.evalProgram w with
      | .ok v w' => .finished b.code ⟨[], v, 0⟩ w'
      | .error e w' => .failed e w' := by
  have hruns : start.Runs b.code b.evalProgram start.withLast :=
    Statement.runs_codeAll (fun s _ => s.runs_code) start
  have h := hruns [] [] w
  rw [List.append_nil] at h
  rw [exec, h, List.append_nil]
  cases b.evalProgram w with
  | ok v w' =>
      change Halt.finished b.code.reverse.reverse _ _ = _
      rw [List.reverse_reverse]
      rfl
  | error e w' => rfl

end Abacus
