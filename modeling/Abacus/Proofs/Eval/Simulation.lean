import Abacus.Eval
import Abacus.Proofs.Syntax.Names

/-!
Comparing evaluations. Two computations that are started in related worlds agree if they end in
related worlds, with the same value or with errors that correspond. Sequences of computations agree
if their parts do, so that a simulation between programs has only to look at the steps they take.
-/
namespace Abacus.Eval

variable {α β : Type} {R : World → World → Prop} {f : RuntimeError → RuntimeError}

/-- What two computations end with corresponds: the worlds by `R`, values by equality and errors
by `f`. -/
inductive Agree (R : World → World → Prop) (f : RuntimeError → RuntimeError) {α : Type} :
    EStateM.Result RuntimeError World α → EStateM.Result RuntimeError World α → Prop where
  | ok {a : α} {w w' : World} : R w w' → Agree R f (.ok a w) (.ok a w')
  | error {e : RuntimeError} {w w' : World} : R w w' → Agree R f (.error e w) (.error (f e) w')

def Simulates (R : World → World → Prop) (f : RuntimeError → RuntimeError) (x x' : Eval α) : Prop :=
  ∀ ⦃w w'⦄, R w w' → Agree R f (x w) (x' w')

theorem simulates_pure (a : α) : Simulates R f (pure a) (pure a) :=
  fun _ _ h => .ok h

theorem simulates_lift {result result' : Except RuntimeError α}
    (hr : result' = result.mapError f) : Simulates R f (lift result) (lift result') := by
  intro w w' h
  subst hr
  cases result with
  | ok a => exact .ok h
  | error e => exact .error h

theorem simulates_lift_self (result : Except RuntimeError α) :
    Simulates R id (lift result) (lift result) := by
  apply simulates_lift
  cases result <;> rfl

theorem bind_apply (x : Eval α) (next : α → Eval β) (w : World) :
    (x >>= next) w =
      match x w with
      | .ok a u => next a u
      | .error e u => .error e u := by
  cases h : x w <;> simp [bind, EStateM.bind, h]

theorem bind_eq_ok_iff {x : Eval α} {next : α → Eval β} {w u : World} {b : β} :
    (x >>= next) w = .ok b u ↔ ∃ a v, x w = .ok a v ∧ next a v = .ok b u := by
  rw [bind_apply]
  cases x w <;> simp [and_assoc]

section Steps

variable {S : World → World → Prop} {x x' : Eval α} {w w' : World}

theorem Agree.refl (result : EStateM.Result RuntimeError World α) : Agree Eq id result result := by
  cases result with
  | ok a u => exact .ok rfl
  | error e u => exact .error rfl

theorem Agree.mono {result result' : EStateM.Result RuntimeError World α}
    (h : Agree R f result result') (hRS : ∀ {u u'}, R u u' → S u u') : Agree S f result result' := by
  cases h with
  | ok hu => exact .ok (hRS hu)
  | error hu => exact .error (hRS hu)

/-- One computation after another. The second may rely on what the first has done. -/
theorem Agree.bind {next next' : α → Eval β} (hx : Agree R f (x w) (x' w'))
    (hn : ∀ {a u u'}, x w = .ok a u → R u u' → Agree S f (next a u) (next' a u'))
    (hRS : ∀ {u u'}, R u u' → S u u') :
    Agree S f ((x >>= next) w) ((x' >>= next') w') := by
  rw [bind_apply, bind_apply]
  generalize hresult : x w = result at hx
  generalize x' w' = result' at hx
  cases hx with
  | ok hu => exact hn hresult hu
  | error hu => exact .error (hRS hu)

/-- A scope around a computation, if closing one keeps the worlds that it ends in related. -/
theorem Agree.inScope (hx : Agree R f (x w.push) (x' w'.push))
    (hpop : ∀ {u u'}, R u u' → S u.pop u'.pop) :
    Agree S f (inScope x w) (inScope x' w') := by
  simp only [Eval.inScope]
  generalize x w.push = result at hx
  generalize x' w'.push = result' at hx
  cases hx with
  | ok hu => exact .ok (hpop hu)
  | error hu => exact .error (hpop hu)

end Steps

theorem Simulates.bind {x x' : Eval α} {next next' : α → Eval β} (hx : Simulates R f x x')
    (hn : ∀ a, Simulates R f (next a) (next' a)) :
    Simulates R f (x >>= next) (x' >>= next') :=
  fun _ _ h => (hx h).bind (fun _ hu => hn _ hu) id

/-- A scope around related computations, if opening and closing one keeps worlds related. -/
theorem Simulates.inScope {x x' : Eval α} (hx : Simulates R f x x')
    (hpush : ∀ {w w'}, R w w' → R w.push w'.push) (hpop : ∀ {w w'}, R w w' → R w.pop w'.pop) :
    Simulates R f (inScope x) (inScope x') :=
  fun _ _ h => (hx (hpush h)).inScope hpop

/-- Expressions with different variables do the same if reading and assigning corresponding variables
does, and calling functions. -/
theorem simulates_mapNames {ρ : String → String} {e : Expr}
    (hlookup : ∀ x ∈ e.vars, ∀ line, Simulates R id (lookup x line) (lookup (ρ x) line))
    (hassign : ∀ x ∈ e.vars, ∀ v line,
      Simulates R id (assign x v line) (assign (ρ x) v line))
    (hcall : ∀ g ∈ e.callees, ∀ vs line, Simulates R id (call g vs line) (call g vs line)) :
    Simulates R id e.eval (e.mapNames ρ).eval := by
  induction e with
  | number line value => exact simulates_pure _
  | name line x =>
      simp only [Expr.mapNames, Expr.eval]
      exact hlookup x (List.mem_singleton_self x) line
  | negate line e ih =>
      simp only [Expr.mapNames, Expr.eval]
      exact (ih hlookup hassign hcall).bind fun v => simulates_lift_self _
  | not line e ih =>
      simp only [Expr.mapNames, Expr.eval]
      exact (ih hlookup hassign hcall).bind fun v => simulates_pure _
  | group e ih =>
      simp only [Expr.mapNames, Expr.eval]
      exact ih hlookup hassign hcall
  | call line g es ih =>
      simp only [Expr.callees, List.forall_mem_cons] at hcall
      have hargs : Simulates R id (Expr.evalAll es) (Expr.evalAll (Expr.mapNamesAll ρ es)) := by
        obtain ⟨-, hcall⟩ := hcall
        induction es with
        | nil => exact simulates_pure _
        | cons e es ihs =>
            simp only [Expr.vars, Expr.varsAll, List.forall_mem_append] at hlookup hassign ihs
            simp only [Expr.calleesAll, List.forall_mem_append] at hcall
            simp only [Expr.mapNamesAll, Expr.evalAll]
            obtain ⟨he, hes⟩ := List.forall_mem_cons.1 ih
            exact (he hlookup.1 hassign.1 hcall.1).bind fun v =>
              (ihs hes hlookup.2 hassign.2 hcall.2).bind fun vs => simulates_pure _
      simp only [Expr.mapNames, Expr.eval]
      exact hargs.bind fun vs => hcall.1 vs line
  | binary line op l r ihl ihr =>
      simp only [Expr.vars, Expr.callees, List.forall_mem_append] at hlookup hassign hcall
      simp only [Expr.mapNames, Expr.eval]
      exact (ihl hlookup.1 hassign.1 hcall.1).bind fun _ =>
        (ihr hlookup.2 hassign.2 hcall.2).bind fun _ => simulates_lift_self _
  | assign line x e ih =>
      simp only [Expr.vars, List.forall_mem_cons] at hlookup hassign
      simp only [Expr.mapNames, Expr.eval]
      exact (ih hlookup.2 hassign.2 hcall).bind fun v =>
        (hassign.1 v line).bind fun _ => simulates_pure _

/-- Relations between worlds, one for each number of scopes that have been opened since the start, in
which every step does the same that a program can take with the given variables and functions. In the
scope that it starts in, it declares no other than its own names. -/
structure Lockstep (R : Nat → World → World → Prop) (vars callees own : List String) : Prop where
  lookup : ∀ {depth x}, x ∈ vars → ∀ line,
    Simulates (R depth) id (Eval.lookup x line) (Eval.lookup x line)
  assign : ∀ {depth x}, x ∈ vars → ∀ v line,
    Simulates (R depth) id (Eval.assign x v line) (Eval.assign x v line)
  declare : ∀ {depth x}, x ∈ vars → (depth = 0 → x ∈ own) → ∀ v line,
    Simulates (R depth) id (Eval.declare x v line) (Eval.declare x v line)
  call : ∀ {depth g}, g ∈ callees → ∀ vs line,
    Simulates (R depth) id (Eval.call g vs line) (Eval.call g vs line)
  push : ∀ {depth w w'}, R depth w w' → R (depth + 1) w.push w'.push
  pop : ∀ {depth w w'}, R (depth + 1) w w' → R depth w.pop w'.pop

namespace Lockstep

variable {R : Nat → World → World → Prop} {vars callees own : List String} {depth : Nat}

theorem expr (h : Lockstep R vars callees own) {e : Expr} (hv : e.vars ⊆ vars)
    (hc : e.callees ⊆ callees) (depth : Nat) : Simulates (R depth) id e.eval e.eval := by
  have hsim : Simulates (R depth) id e.eval (e.mapNames id).eval :=
    simulates_mapNames (fun _ hx => h.lookup (hv hx)) (fun _ hx => h.assign (hv hx))
      (fun _ hg => h.call (hc hg))
  rwa [e.mapNames_id] at hsim

theorem evalFrom {body : List Statement}
    (h : ∀ s ∈ body, s.vars ⊆ vars → s.callees ⊆ callees → (depth = 0 → s.declared ⊆ own) →
      Simulates (R depth) id s.eval s.eval)
    (hv : Statement.varsAll body ⊆ vars) (hc : Statement.calleesAll body ⊆ callees)
    (hd : depth = 0 → Statement.declaredAll body ⊆ own) (last : Option Value) :
    Simulates (R depth) id (Statement.evalFrom last body) (Statement.evalFrom last body) := by
  induction body generalizing last with
  | nil => exact simulates_pure last
  | cons s body ih =>
      obtain ⟨hs, hbody⟩ := List.forall_mem_cons.1 h
      obtain ⟨hvs, hvbody⟩ := List.append_subset.1 hv
      obtain ⟨hcs, hcbody⟩ := List.append_subset.1 hc
      simp only [Statement.declaredAll, List.flatMap_cons, List.append_subset] at hd
      rw [Statement.evalFrom]
      exact (hs hvs hcs fun hz => (hd hz).1).bind fun v =>
        ih hbody hvbody hcbody (fun hz => (hd hz).2) v

theorem statement (h : Lockstep R vars callees own) {s : Statement} (hv : s.vars ⊆ vars)
    (hc : s.callees ⊆ callees) (hd : depth = 0 → s.declared ⊆ own) :
    Simulates (R depth) id s.eval s.eval := by
  induction s generalizing depth with
  | declare line x e =>
      obtain ⟨hx, hv⟩ := List.cons_subset.1 hv
      have hown : depth = 0 → x ∈ own := fun hz => hd hz (List.mem_singleton_self x)
      rw [Statement.eval]
      exact (h.expr hv hc depth).bind fun v =>
        (h.declare hx hown v line).bind fun _ => simulates_pure _
  | expression e =>
      rw [Statement.eval]
      exact (h.expr hv hc depth).bind fun v => simulates_pure _
  | block line body ih =>
      rw [Statement.eval]
      have hbody : Simulates (R (depth + 1)) id (Statement.evalFrom none body)
          (Statement.evalFrom none body) :=
        evalFrom (fun s hs hv hc hd => ih s hs hv hc hd) hv hc
          (absurd · (Nat.succ_ne_zero depth)) none
      exact fun _ _ hw => (hbody (h.push hw)).inScope h.pop

theorem program (h : Lockstep R vars callees own) {b : Block} (hv : b.vars ⊆ vars)
    (hc : b.callees ⊆ callees) (hd : depth = 0 → b.declared ⊆ own) :
    Simulates (R depth) id b.evalProgram b.evalProgram :=
  evalFrom (fun _ _ hv hc hd => h.statement hv hc hd) hv hc hd none

end Lockstep

end Abacus.Eval
