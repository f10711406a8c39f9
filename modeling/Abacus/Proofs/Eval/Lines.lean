import Abacus.Proofs.Eval.Simulation
import Abacus.Proofs.Syntax.Lines

/-!
Lines are carried but not consulted: with functions that pass the line of a call on to their errors
and to nothing else, a program with renumbered lines does the same, and its errors have the
renumbered lines. What was printed before does not matter either.
-/
namespace Abacus

def RuntimeError.mapLine (r : Nat → Nat) : RuntimeError → RuntimeError
  | unknownVariable name line => unknownVariable name (r line)
  | unknownFunction name line => unknownFunction name (r line)
  | alreadyDeclared name line => alreadyDeclared name (r line)
  | expectedNumber line => expectedNumber (r line)
  | divisionByZero line => divisionByZero (r line)
  | argumentCount name expected found line => argumentCount name expected found (r line)

@[simp] theorem RuntimeError.mapLine_id (e : RuntimeError) : e.mapLine id = e := by
  cases e <;> rfl

/-- A function body to which the line of a call is only something to report. -/
def HostFunction.IgnoresLine (f : HostFunction) : Prop :=
  ∀ (r : Nat → Nat) (arguments : List Value) (line : Nat),
    f.body arguments (r line) =
      ⟨(f.body arguments line).printed, (f.body arguments line).result.mapError (·.mapLine r)⟩

/-- All functions that can be called ignore lines. -/
def Context.IgnoresLines (c : Context) : Prop :=
  ∀ name, ∀ f ∈ c.function? name, f.IgnoresLine

section Operators

variable (r : Nat → Nat) (line : Nat)

theorem Value.toNumber_mapLine (v : Value) :
    v.toNumber (r line) = (v.toNumber line).mapError (·.mapLine r) := by
  cases v <;> rfl

theorem Value.negate_mapLine (v : Value) :
    v.negate (r line) = (v.negate line).mapError (·.mapLine r) := by
  cases v <;> rfl

theorem BinOp.apply_mapLine (op : BinOp) (left right : Value) :
    op.apply (r line) left right = (op.apply line left right).mapError (·.mapLine r) := by
  cases op with
  | and | or | equal | notEqual => rfl
  | less | greater | add | sub | mul => cases left <;> cases right <;> rfl
  | div =>
      cases left with
      | bool _ => rfl
      | number x =>
          cases right with
          | bool _ => rfl
          | number y =>
              simp only [apply, Value.onNumbers, Value.toNumber]
              split <;> rfl

end Operators

section Functions

variable (r : Nat → Nat)

theorem Builtin.number_mapLine (arguments : List Value) (index line : Nat) :
    number arguments index (r line) = (number arguments index line).mapError (·.mapLine r) := by
  unfold number
  split
  · rfl
  · exact Value.toNumber_mapLine r line _

theorem Builtin.ignoresLine_onOne (arity : Arity) (f : Float → Float) :
    HostFunction.IgnoresLine ⟨arity, onOne f⟩ := by
  intro r arguments line
  simp only [onOne, Reply.silent, number_mapLine r]
  cases number arguments 0 line <;> rfl

theorem Builtin.ignoresLine_onTwo (arity : Arity) (f : Float → Float → Float) :
    HostFunction.IgnoresLine ⟨arity, onTwo f⟩ := by
  intro r arguments line
  simp only [onTwo, Reply.silent, number_mapLine r]
  cases number arguments 0 line with
  | error _ => rfl
  | ok x => cases number arguments 1 line <;> rfl

theorem Builtin.ignoresLine_of_mem {entry : String × HostFunction} (h : entry ∈ table) :
    entry.2.IgnoresLine := by
  simp only [table, List.mem_cons, List.not_mem_nil, or_false] at h
  obtain rfl | rfl | rfl | rfl | rfl | rfl := h
  · exact fun _ _ _ => rfl
  · exact ignoresLine_onOne _ _
  · exact ignoresLine_onTwo _ _
  · exact ignoresLine_onOne _ _
  · exact ignoresLine_onTwo _ _
  · exact ignoresLine_onTwo _ _

theorem Bindings.mem_of_findEntry {α : Type} {name : String} {a : α}
    {entries : List (String × α)} (h : findEntry name entries = some a) : (name, a) ∈ entries := by
  induction entries with
  | nil => cases h
  | cons entry rest ih =>
      obtain ⟨other, b⟩ := entry
      by_cases hn : name = other
      · simp_all [findEntry]
      · simp_all [findEntry]

theorem Context.ignoresLines_withBuiltins : withBuiltins.IgnoresLines := by
  intro name f hf
  have hentry : Bindings.findEntry name Builtin.table = some f := hf
  exact Builtin.ignoresLine_of_mem (Bindings.mem_of_findEntry hentry)

theorem HostFunction.call_mapLine {f : HostFunction} (h : f.IgnoresLine) (name : String)
    (arguments : List Value) (line : Nat) :
    f.call name arguments (r line) =
      ⟨(f.call name arguments line).printed,
        (f.call name arguments line).result.mapError (·.mapLine r)⟩ := by
  unfold call
  split
  · exact h r arguments line
  · rfl

end Functions

/-- The second world is like the first, except that something was printed before. What happened
before may differ too. -/
structure World.Continues (printed : String) (w w' : World) : Prop where
  context_eq : w'.context = w.context
  output_eq : w'.output = printed ++ w.output
  ignoresLines : w.context.IgnoresLines

namespace Context

variable {c c' : Context} {x : String} {v : Value} {line : Nat}

theorem function?_declare (h : c.declare x v line = .ok c') : c'.function? = c.function? := by
  unfold declare at h
  split at h
  · cases h
  · cases h
    rfl

theorem function?_assign (h : c.assign x v line = .ok c') : c'.function? = c.function? := by
  unfold assign at h
  split at h
  · cases h
    rfl
  · split at h
    · cases h
    · cases h
      rfl

theorem function?_pop (c : Context) : c.pop.function? = c.function? := by
  unfold pop
  split <;> rfl

theorem declare_mapLine (r : Nat → Nat) (c : Context) (x : String) (v : Value) (line : Nat) :
    c.declare x v (r line) = (c.declare x v line).mapError (·.mapLine r) := by
  unfold declare
  split <;> rfl

theorem assign_mapLine (r : Nat → Nat) (c : Context) (x : String) (v : Value) (line : Nat) :
    c.assign x v (r line) = (c.assign x v line).mapError (·.mapLine r) := by
  unfold assign
  split
  · rfl
  · split <;> rfl

end Context

namespace Eval

variable (r : Nat → Nat) (printed : String)

theorem simulates_lookup (x : String) (line : Nat) :
    Simulates (World.Continues printed) (·.mapLine r) (lookup x line) (lookup x (r line)) := by
  intro w w' h
  simp only [lookup, h.context_eq]
  cases w.context.get? x with
  | none => exact .error h
  | some v => exact .ok h

theorem simulates_declare (x : String) (v : Value) (line : Nat) :
    Simulates (World.Continues printed) (·.mapLine r) (declare x v line)
      (declare x v (r line)) := by
  intro w w' h
  simp only [declare, h.context_eq, Context.declare_mapLine r]
  cases hd : w.context.declare x v line with
  | error e => exact .error h
  | ok c =>
      refine .ok ⟨rfl, h.output_eq, fun name f hf => h.ignoresLines name f ?_⟩
      rw [← Context.function?_declare hd]
      exact hf

theorem simulates_assign (x : String) (v : Value) (line : Nat) :
    Simulates (World.Continues printed) (·.mapLine r) (assign x v line) (assign x v (r line)) := by
  intro w w' h
  simp only [assign, h.context_eq, Context.assign_mapLine r]
  cases ha : w.context.assign x v line with
  | error e => exact .error h
  | ok c =>
      refine .ok ⟨rfl, h.output_eq, fun name f hf => h.ignoresLines name f ?_⟩
      rw [← Context.function?_assign ha]
      exact hf

theorem simulates_call (f : String) (vs : List Value) (line : Nat) :
    Simulates (World.Continues printed) (·.mapLine r) (call f vs line) (call f vs (r line)) := by
  intro w w' h
  simp only [call, h.context_eq]
  cases hf : w.context.function? f with
  | none => exact .error h
  | some g =>
      simp only [HostFunction.call_mapLine r (h.ignoresLines f g hf)]
      apply simulates_lift rfl
      refine ⟨rfl, ?_, h.ignoresLines⟩
      simp only [World.note, h.output_eq, String.append_assoc]

theorem simulates_inScope {α : Type} {x x' : Eval α}
    (hx : Simulates (World.Continues printed) (·.mapLine r) x x') :
    Simulates (World.Continues printed) (·.mapLine r) (inScope x) (inScope x') := by
  apply hx.inScope
  · intro w w' h
    exact ⟨congrArg Context.push h.context_eq, h.output_eq, h.ignoresLines⟩
  · intro w w' h
    refine ⟨congrArg Context.pop h.context_eq, h.output_eq, fun name f hf => ?_⟩
    apply h.ignoresLines name f
    rw [← Context.function?_pop]
    exact hf

end Eval

open Eval

theorem Expr.simulates_mapLines (r : Nat → Nat) (printed : String) (e : Expr) :
    Simulates (World.Continues printed) (·.mapLine r) e.eval (e.mapLines r).eval := by
  induction e with
  | number _ value => exact simulates_pure _
  | name line x => exact simulates_lookup r printed x line
  | negate line e ih =>
      simp only [mapLines, eval]
      exact ih.bind fun v => simulates_lift (v.negate_mapLine r line)
  | not line e ih =>
      simp only [mapLines, eval]
      exact ih.bind fun _ => simulates_pure _
  | group e ih =>
      simp only [mapLines, eval]
      exact ih
  | call line f as ih =>
      have hargs : Simulates (World.Continues printed) (·.mapLine r) (evalAll as)
          (evalAll (mapLinesAll r as)) := by
        induction as with
        | nil => exact simulates_pure _
        | cons a as ihs =>
            simp only [mapLinesAll, evalAll]
            refine (ih a (List.mem_cons_self ..)).bind fun v => ?_
            refine (ihs fun b hb => ih b (List.mem_cons_of_mem _ hb)).bind fun vs => ?_
            exact simulates_pure _
      simp only [mapLines, eval]
      exact hargs.bind fun vs => simulates_call r printed f vs line
  | binary line op left right ihl ihr =>
      simp only [mapLines, eval]
      refine ihl.bind fun l => ihr.bind fun v => ?_
      exact simulates_lift (op.apply_mapLine r line l v)
  | assign line x e ih =>
      simp only [mapLines, eval]
      refine ih.bind fun v => ?_
      exact (simulates_assign r printed x v line).bind fun _ => simulates_pure _

mutual

theorem Statement.simulates_mapLines (r : Nat → Nat) (printed : String) : (s : Statement) →
    Simulates (World.Continues printed) (·.mapLine r) s.eval (s.mapLines r).eval
  | .declare line x e => by
      simp only [mapLines, eval]
      refine (e.simulates_mapLines r printed).bind fun v => ?_
      exact (simulates_declare r printed x v line).bind fun _ => simulates_pure _
  | .expression e => by
      simp only [mapLines, eval]
      exact (e.simulates_mapLines r printed).bind fun _ => simulates_pure _
  | .block _ body => by
      simp only [mapLines, eval]
      exact simulates_inScope r printed (Statement.simulates_mapLinesAll r printed none body)

theorem Statement.simulates_mapLinesAll (r : Nat → Nat) (printed : String) (last : Option Value) :
    (body : List Statement) →
    Simulates (World.Continues printed) (·.mapLine r) (evalFrom last body)
      (evalFrom last (mapLinesAll r body))
  | [] => simulates_pure _
  | s :: rest => by
      simp only [mapLinesAll, evalFrom]
      exact (Statement.simulates_mapLines r printed s).bind fun v =>
        Statement.simulates_mapLinesAll r printed v rest

end

/-- Statements do the same in worlds that differ only in what happened before. -/
theorem Statement.simulates_self (printed : String) (last : Option Value) (body : List Statement) :
    Simulates (World.Continues printed) id (evalFrom last body) (evalFrom last body) := by
  have h := simulates_mapLinesAll id printed last body
  have hid : (fun e : RuntimeError => e.mapLine id) = id := by
    funext e
    exact e.mapLine_id
  rw [mapLinesAll_id, hid] at h
  exact h

end Abacus
