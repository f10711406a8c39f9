import Abacus.Proofs.Eval.Scoping
import Abacus.Session

/-!
A scope of its own changes nothing for a block but where its variables are. The same statements are run
in the innermost scope and in a new one. In the first run that scope holds what the second keeps in two:
the variables that the block declares, in the new scope, and those that were there before, in the one
around it. As long as no name is in both, every step finds the same variable in either run.
-/
namespace Abacus

open Eval

/-- The variables of a scope in two parts: those of the given names in the inner one, all others in the
outer one. -/
structure Scope.Parts (names : List String) (scope inner around : Scope) : Prop where
  get?_inner : ∀ x, inner.get? x = if x ∈ names then scope.get? x else none
  get?_around : ∀ x, around.get? x = if x ∈ names then none else scope.get? x

namespace Scope.Parts

variable {names : List String} {scope inner around : Scope} {x : String}

theorem contains_inner (h : Parts names scope inner around) (x : String) :
    inner.contains x = (decide (x ∈ names) && scope.contains x) := by
  rw [Bindings.contains, h.get?_inner x]
  by_cases hx : x ∈ names <;> simp [hx, Bindings.contains]

theorem contains_around (h : Parts names scope inner around) (x : String) :
    around.contains x = (!decide (x ∈ names) && scope.contains x) := by
  rw [Bindings.contains, h.get?_around x]
  by_cases hx : x ∈ names <;> simp [hx, Bindings.contains]

theorem insert_inner (h : Parts names scope inner around) (hx : x ∈ names) (v : Value) :
    Parts names (scope.insert x v) (inner.insert x v) around := by
  refine ⟨fun y => ?_, fun y => ?_⟩
  · rw [Bindings.get?_insert, Bindings.get?_insert, h.get?_inner y]
    by_cases hy : y = x <;> simp [hy, hx]
  · rw [Bindings.get?_insert, h.get?_around y]
    by_cases hy : y = x <;> simp [hy, hx]

theorem insert_around (h : Parts names scope inner around) (hx : x ∉ names) (v : Value) :
    Parts names (scope.insert x v) inner (around.insert x v) := by
  refine ⟨fun y => ?_, fun y => ?_⟩
  · rw [Bindings.get?_insert, h.get?_inner y]
    by_cases hy : y = x <;> simp [hy, hx]
  · rw [Bindings.get?_insert, Bindings.get?_insert, h.get?_around y]
    by_cases hy : y = x <;> simp [hy, hx]

end Scope.Parts

namespace Context

/-- The second stack is the first with one scope, that below the innermost `depth`, in two parts. -/
inductive Split (names : List String) : Nat → List Scope → List Scope → Prop where
  | here {scope inner around : Scope} {outer : List Scope} : Scope.Parts names scope inner around →
      Split names 0 (scope :: outer) (inner :: around :: outer)
  | above {depth : Nat} {scope : Scope} {rest rest' : List Scope} :
      Split names depth rest rest' → Split names (depth + 1) (scope :: rest) (scope :: rest')

namespace Split

variable {names : List String} {depth : Nat} {scopes scopes' : List Scope}

theorem findSome?_eq (h : Split names depth scopes scopes') (x : String) :
    scopes'.findSome? (·.get? x) = scopes.findSome? (·.get? x) := by
  induction h with
  | here h =>
      rw [List.findSome?_cons, List.findSome?_cons, List.findSome?_cons, h.get?_inner x,
        h.get?_around x]
      by_cases hx : x ∈ names <;> simp [hx]
  | above _ ih => rw [List.findSome?_cons, List.findSome?_cons, ih]

/-- An assignment finds the same variable in both, or none. -/
theorem assignIn (h : Split names depth scopes scopes') (x : String) (v : Value) :
    Option.Rel (Split names depth) (Context.assignIn x v scopes) (Context.assignIn x v scopes') := by
  induction h with
  | @here scope inner around outer h =>
      simp only [Context.assignIn, h.contains_inner x, h.contains_around x]
      cases hc : scope.contains x with
      | true =>
          by_cases hx : x ∈ names
          · simp only [hx]
            exact .some (.here (h.insert_inner hx v))
          · simp only [hx]
            exact .some (.here (h.insert_around hx v))
      | false =>
          simp only [Bool.and_false]
          cases Context.assignIn x v outer with
          | none => exact .none
          | some outer' => exact .some (.here h)
  | above hrest ih => exact rel_assignIn_cons rfl ih (.above hrest) .above

/-- In the scope that is split, only the names of the inner part are declared. -/
theorem insert {top top' : Scope} {outer outer' : List Scope} {x : String}
    (h : Split names depth (top :: outer) (top' :: outer')) (hx : depth = 0 → x ∈ names) (v : Value) :
    top'.contains x = top.contains x ∧
      Split names depth (top.insert x v :: outer) (top'.insert x v :: outer') := by
  cases h with
  | here h =>
      have hx := hx rfl
      exact ⟨by simp [h.contains_inner x, hx], .here (h.insert_inner hx v)⟩
  | above hrest => exact ⟨rfl, .above hrest⟩

end Split

end Context

/-- Two worlds of which the second has one scope split in two. What is noted of them may differ. -/
structure World.Split (names : List String) (depth : Nat) (w w' : World) : Prop where
  functions_eq : w'.context.functions = w.context.functions
  output_eq : w'.output = w.output
  scopes : Context.Split names depth w.context.scopes w'.context.scopes

namespace World.Split

variable {names : List String} {depth : Nat} {w w' : World}

theorem push (h : w.Split names depth w') : w.push.Split names (depth + 1) w'.push :=
  ⟨h.functions_eq, h.output_eq, .above h.scopes⟩

theorem pop (h : w.Split names (depth + 1) w') : w.pop.Split names depth w'.pop := by
  obtain ⟨⟨functions, top, outer⟩, output, trace⟩ := w
  obtain ⟨⟨functions', top', outer'⟩, output', trace'⟩ := w'
  obtain ⟨hfunctions, houtput, hscopes⟩ := h
  cases hscopes with
  | above hrest => cases hrest with
    | here h => exact ⟨hfunctions, houtput, .here h⟩
    | above hrest => exact ⟨hfunctions, houtput, .above hrest⟩

theorem declare {x : String} (hx : depth = 0 → x ∈ names) (v : Value) (line : Nat) :
    Simulates (World.Split names depth) id (declare x v line) (declare x v line) := by
  intro w w' h
  obtain ⟨hcontains, hscopes⟩ := h.scopes.insert hx v
  exact .declare h hcontains ⟨h.functions_eq, h.output_eq, hscopes⟩

theorem lockstep (vars callees names : List String) :
    Lockstep (World.Split names) vars callees names where
  lookup := fun _ line _ _ h => .lookup h (h.scopes.findSome?_eq _) line
  assign := fun _ v line _ _ h => .assign h (h.scopes.assignIn _ v)
    (fun hc hc' hscopes => ⟨hc'.trans (h.functions_eq.trans hc.symm), h.output_eq, hscopes⟩) line
  declare := fun _ hx => declare hx
  call := fun _ vs line _ _ h => .call h (congrArg (Bindings.get? · _) h.functions_eq)
    ⟨h.functions_eq, congrArg (· ++ _) h.output_eq, h.scopes⟩ vs line
  push := push
  pop := pop

/-- Closing the inner part leaves the outer one. -/
theorem context_pop (h : w.Split names 0 w') :
    w'.pop.context.functions = w.context.functions ∧ w'.pop.context.outer = w.context.outer ∧
      ∀ x, w'.pop.context.top.get? x = if x ∈ names then none else w.context.top.get? x := by
  obtain ⟨⟨functions, top, outer⟩, output, trace⟩ := w
  obtain ⟨⟨functions', top', outer'⟩, output', trace'⟩ := w'
  obtain ⟨hfunctions, -, hscopes⟩ := h
  cases hscopes with
  | here h => exact ⟨hfunctions, rfl, h.get?_around⟩

end World.Split

/-- A new scope splits the innermost one if that has none of the names. -/
theorem Context.split_push {c : Context} {names : List String}
    (h : ∀ x ∈ names, c.owns 0 x = false) : Split names 0 c.scopes c.push.scopes := by
  have hnone : ∀ x ∈ names, c.top.get? x = none := fun x hx =>
    Option.isNone_iff_eq_none.1 (Option.isSome_eq_false_iff.1 (h x hx))
  refine .here ⟨fun x => ?_, fun x => ?_⟩
  · by_cases hx : x ∈ names
    · rw [if_pos hx, hnone x hx]
      rfl
    · rw [if_neg hx]
      rfl
  · by_cases hx : x ∈ names
    · rw [if_pos hx, hnone x hx]
    · rw [if_neg hx]

/-- A block that declares no variable which the innermost scope has already does the same there and in a
scope of its own: it gives the same value or error and prints the same, and leaves the same scopes
behind, but for its own variables, which are gone with the scope that was theirs. -/
theorem Block.evalScoped_evalProgram {b : Block} {c : Context}
    (h : ∀ x ∈ b.declared, c.owns 0 x = false) :
    let r := Run.ofEval c b.evalProgram
    let r' := Run.ofEval c b.evalScoped
    r'.result = r.result ∧ r'.world.output = r.world.output ∧
      r'.world.context.functions = r.world.context.functions ∧
      r'.world.context.outer = r.world.context.outer ∧
      ∀ x, r'.world.context.top.get? x =
        if x ∈ b.declared then none else r.world.context.top.get? x := by
  have hsplit : (World.start c).Split b.declared 0 (World.start c).push :=
    ⟨rfl, rfl, Context.split_push h⟩
  have hprogram : Simulates (World.Split b.declared 0) id b.evalProgram b.evalProgram :=
    (World.Split.lockstep b.vars b.callees b.declared).program (List.Subset.refl _)
      (List.Subset.refl _) fun _ => List.Subset.refl _
  have hagree := hprogram hsplit
  simp only [Run.ofEval, Block.evalScoped, inScope]
  generalize b.evalProgram (World.start c) = result at hagree
  generalize b.evalProgram (World.start c).push = result' at hagree
  cases hagree with
  | ok hw => exact ⟨rfl, hw.output_eq, hw.context_pop⟩
  | error hw => exact ⟨rfl, hw.output_eq, hw.context_pop⟩

/-- A variable of the innermost scope is assigned, one of a scope further out is shadowed, and an inner
block does both to the block's own, before the block fails. -/
theorem Block.evalScoped_evalProgram_failing :
    let b : Block :=
      { line := 1
        statements := [.expression (.assign 1 "x" (.not 1 (.name 1 "x"))), .declare 2 "y" (.name 2 "y"),
          .declare 2 "z" (.name 2 "x"),
          .block 3 [.expression (.assign 3 "y" (.name 3 "z")), .declare 4 "z" (.name 4 "x"),
            .expression (.assign 5 "x" (.name 5 "z"))],
          .expression (.name 6 "w"), .declare 7 "v" (.name 7 "x")] }
    let scope (x : String) (v : Bool) : Scope := Bindings.empty.insert x (.bool v)
    let c : Context := ⟨.empty, scope "x" true, [scope "y" true]⟩
    let r' := Run.ofEval c b.evalScoped
    (∀ x ∈ b.declared, c.owns 0 x = false) ∧
      r'.result = .error (.runtime (.unknownVariable "w" 6)) ∧
      r'.world.context.outer = [scope "y" true] ∧
      r'.world.context.top.get? "x" = some (.bool false) ∧
      r'.world.context.top.get? "y" = none := by
  intro b scope c r'
  have h : ∀ x ∈ b.declared, c.owns 0 x = false := by decide
  obtain ⟨hresult, -, -, houter, htop⟩ := evalScoped_evalProgram h
  rw [hresult, houter, htop "x", htop "y"]
  refine ⟨h, ?_, ?_, ?_, ?_⟩
  all_goals with_unfolding_all rfl

end Abacus
