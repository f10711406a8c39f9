import Abacus.Proofs.Eval.Scoping

/-!
The variables of the outermost scope. A name gets there by a declaration that is made while no other
scope is open, which is an event of the evaluation, and in no other way; and it is never lost again.
This holds of every single step of an evaluation and therefore of the whole, wherever it ends.
-/
namespace Abacus

namespace Eval

variable {α β : Type} {R : World → World → Prop}

/-- A relation between worlds that every single step of an evaluation stays in. -/
structure Stepwise (R : World → World → Prop) : Prop where
  refl : ∀ w, R w w
  trans : ∀ {u v w}, R u v → R v w → R u w
  declare : ∀ x v line w, R w ((declare x v line).worldAfter w)
  assign : ∀ x v line w, R w ((assign x v line).worldAfter w)
  call : ∀ f vs line w, R w ((call f vs line).worldAfter w)
  push : ∀ w : World, R w w.push
  pop : ∀ w : World, R w w.pop

/-- A computation stays in a relation between worlds, whether it succeeds or fails. -/
def StaysIn (R : World → World → Prop) (m : Eval α) : Prop :=
  ∀ w, R w (m.worldAfter w)

namespace Stepwise

theorem pure (h : Stepwise R) (a : α) : StaysIn R (pure a) :=
  fun w => h.refl w

theorem lift (h : Stepwise R) (result : Except RuntimeError α) : StaysIn R (lift result) := by
  intro w
  cases result <;> exact h.refl w

theorem lookup (h : Stepwise R) (x : String) (line : Nat) : StaysIn R (lookup x line) := by
  intro w
  simp only [worldAfter, Eval.lookup]
  cases w.context.get? x <;> exact h.refl w

theorem bind (h : Stepwise R) {m : Eval α} {next : α → Eval β} (hm : StaysIn R m)
    (hn : ∀ a, StaysIn R (next a)) : StaysIn R (m >>= next) := by
  intro w
  have hw := hm w
  simp only [worldAfter, bind_apply] at hw ⊢
  cases hr : m w with
  | error e u =>
      rw [hr] at hw
      exact hw
  | ok a u =>
      rw [hr] at hw
      exact h.trans hw (hn a u)

theorem inScope (h : Stepwise R) {m : Eval α} (hm : StaysIn R m) : StaysIn R (inScope m) := by
  intro w
  rw [worldAfter_inScope]
  exact h.trans (h.trans (h.push w) (hm w.push)) (h.pop _)

theorem evalAll (h : Stepwise R) {es : List Expr} (he : ∀ e ∈ es, StaysIn R e.eval) :
    StaysIn R (Expr.evalAll es) := by
  induction es with
  | nil => exact h.pure _
  | cons e es ih =>
      obtain ⟨he, hes⟩ := List.forall_mem_cons.1 he
      rw [Expr.evalAll]
      exact h.bind he fun v => h.bind (ih hes) fun vs => h.pure _

theorem expr (h : Stepwise R) (e : Expr) : StaysIn R e.eval := by
  induction e with
  | number _ _ =>
      rw [Expr.eval]
      exact h.pure _
  | name line x =>
      rw [Expr.eval]
      exact h.lookup x line
  | negate line e ih =>
      rw [Expr.eval]
      exact h.bind ih fun v => h.lift _
  | not line e ih =>
      rw [Expr.eval]
      exact h.bind ih fun v => h.pure _
  | group e ih =>
      rw [Expr.eval]
      exact ih
  | call line f es ih =>
      rw [Expr.eval]
      exact h.bind (h.evalAll ih) fun vs => h.call f vs line
  | binary line op l r ihl ihr =>
      rw [Expr.eval]
      exact h.bind ihl fun _ => h.bind ihr fun _ => h.lift _
  | assign line x e ih =>
      rw [Expr.eval]
      exact h.bind ih fun v => h.bind (h.assign x v line) fun _ => h.pure _

theorem evalFrom (h : Stepwise R) {body : List Statement} (hb : ∀ s ∈ body, StaysIn R s.eval)
    (last : Option Value) : StaysIn R (Statement.evalFrom last body) := by
  induction body generalizing last with
  | nil => exact h.pure last
  | cons s body ih =>
      obtain ⟨hs, hbody⟩ := List.forall_mem_cons.1 hb
      rw [Statement.evalFrom]
      exact h.bind hs fun v => ih hbody v

theorem statement (h : Stepwise R) (s : Statement) : StaysIn R s.eval := by
  induction s with
  | declare line x e =>
      rw [Statement.eval]
      exact h.bind (h.expr e) fun v => h.bind (h.declare x v line) fun _ => h.pure _
  | expression e =>
      rw [Statement.eval]
      exact h.bind (h.expr e) fun v => h.pure _
  | block line body ih =>
      rw [Statement.eval]
      exact h.inScope (h.evalFrom ih none)

theorem program (h : Stepwise R) (b : Block) : StaysIn R b.evalProgram :=
  h.evalFrom (fun s _ => h.statement s) none

end Stepwise

end Eval

/-- Whether the outermost scope has a variable of that name. -/
def Context.ownsGlobal (c : Context) (x : String) : Bool :=
  c.owns c.outer.length x

/-- The names that the second world has in its outermost scope are those of the first and those whose
declaration, with one scope open, is among the events in between. -/
def World.Declares (w w' : World) : Prop :=
  ∃ events, w'.trace = events ++ w.trace ∧ ∀ x, w'.context.ownsGlobal x ↔
    w.context.ownsGlobal x ∨ ∃ v, .declared x v 1 ∈ events

namespace World.Declares

variable {w w' : World} {e : Event}

theorem refl (w : World) : w.Declares w :=
  ⟨[], rfl, fun x => by simp⟩

theorem trans {w'' : World} (h : w.Declares w') (h' : w'.Declares w'') : w.Declares w'' := by
  obtain ⟨events, htrace, hx⟩ := h
  obtain ⟨events', htrace', hx'⟩ := h'
  refine ⟨events' ++ events, ?_, fun x => ?_⟩
  · rw [htrace', htrace, List.append_assoc]
  · rw [hx', hx, or_assoc, ← exists_or]
    simp only [List.mem_append, or_comm]

/-- An event that declares nothing, while the outermost scope keeps its names. -/
theorem of_event (htrace : w'.trace = e :: w.trace) (he : ∀ x v, e ≠ .declared x v 1)
    (hx : ∀ x, w'.context.ownsGlobal x = w.context.ownsGlobal x) : w.Declares w' := by
  refine ⟨[e], htrace, fun x => ?_⟩
  have hnone : ¬ ∃ v, .declared x v 1 ∈ [e] := by
    rintro ⟨v, hv⟩
    exact he x v (List.mem_singleton.1 hv).symm
  rw [hx, or_iff_left hnone]

theorem declare (x : String) (v : Value) (line : Nat) (w : World) :
    w.Declares ((Eval.declare x v line).worldAfter w) := by
  obtain ⟨⟨functions, top, outer⟩, output, trace⟩ := w
  simp only [Eval.worldAfter, Eval.declare, Context.declare]
  cases top.contains x with
  | true => exact .refl _
  | false =>
      cases outer with
      | nil =>
          refine ⟨[.declared x v 1], rfl, fun y => ?_⟩
          change (top.insert x v).contains y ↔ top.contains y ∨ _
          rw [Bindings.contains_insert, Bool.or_eq_true, decide_eq_true_iff, or_comm]
          simp
      | cons scope outer =>
          -- The event has a greater depth here, so it does not tell of the outermost scope.
          refine of_event rfl ?_ fun _ => rfl
          simp [Context.depth, Context.scopes]

theorem assign (x : String) (v : Value) (line : Nat) (w : World) :
    w.Declares ((Eval.assign x v line).worldAfter w) := by
  simp only [Eval.worldAfter, Eval.assign]
  cases ha : w.context.assign x v line with
  | error e => exact .refl w
  | ok c =>
      obtain ⟨_, hscopes⟩ := Context.assign_eq_ok_iff.1 ha
      have hlength : c.outer.length = w.context.outer.length :=
        Nat.succ.inj (Context.length_assignIn hscopes)
      refine ⟨[], rfl, fun y => ?_⟩
      have hown : c.ownsGlobal y = w.context.ownsGlobal y := by
        rw [Context.ownsGlobal, hlength]
        exact Context.any_contains_assignIn hscopes _ y
      simp [hown]

theorem call (f : String) (vs : List Value) (line : Nat) (w : World) :
    w.Declares ((Eval.call f vs line).worldAfter w) := by
  simp only [Eval.worldAfter, Eval.call]
  cases w.context.function? f with
  | none => exact .refl w
  | some g =>
      cases hreply : (g.call f vs line).result <;>
        simp only [Eval.lift, hreply] <;> exact of_event rfl (by simp) fun _ => rfl

theorem push (w : World) : w.Declares w.push :=
  of_event rfl (by simp) fun _ => rfl

theorem pop (w : World) : w.Declares w.pop := by
  refine of_event rfl (by simp) fun y => ?_
  obtain ⟨⟨functions, top, outer⟩, output, trace⟩ := w
  cases outer <;> rfl

theorem stepwise : Eval.Stepwise World.Declares :=
  ⟨refl, trans, declare, assign, call, push, pop⟩

end World.Declares

end Abacus
