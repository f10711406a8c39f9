import Abacus.Proofs.Eval.Scoping
import Abacus.Session

/-!
Evaluation depends only on what can be seen. Of a context, a program sees what its names stand for
and which of them the innermost scope has, and nothing of how deep the scopes are or what is hidden in
them. So it does the same in contexts that agree on this, and leaves them in agreement. Inside a block
that is not enough to know, since what is behind a scope comes back when it is closed: the scopes that
have been opened since the start have to agree one by one.
-/
namespace Abacus

open Eval

namespace Context

/-- Two contexts that look the same to a program with the given variables and functions. -/
structure LooksLike (vars callees : List String) (c c' : Context) : Prop where
  get?_eq : ∀ x ∈ vars, c'.get? x = c.get? x
  owns_eq : ∀ x ∈ vars, c'.owns 0 x = c.owns 0 x
  function?_eq : ∀ f ∈ callees, c'.function? f = c.function? f

/-- Two stacks of scopes that look the same to a program with the given variables, and will do so when
the innermost `depth` scopes are closed again. -/
inductive Alike (vars : List String) : Nat → List Scope → List Scope → Prop where
  | seen {top top' : Scope} {outer outer' : List Scope} :
      (∀ x ∈ vars,
        (top' :: outer').findSome? (·.get? x) = (top :: outer).findSome? (·.get? x)) →
      (∀ x ∈ vars, top'.contains x = top.contains x) →
      Alike vars 0 (top :: outer) (top' :: outer')
  | opened {depth : Nat} {scope scope' : Scope} {rest rest' : List Scope} :
      (∀ x ∈ vars, scope'.get? x = scope.get? x) → Alike vars depth rest rest' →
      Alike vars (depth + 1) (scope :: rest) (scope' :: rest')

theorem findSome?_insert (scope : Scope) (rest : List Scope) (x y : String) (v : Value) :
    (scope.insert x v :: rest).findSome? (·.get? y) =
      if y = x then some v else (scope :: rest).findSome? (·.get? y) := by
  rw [List.findSome?_cons, List.findSome?_cons, Bindings.get?_insert]
  by_cases h : y = x <;> simp [h]

namespace Alike

variable {vars : List String} {x : String} {depth : Nat} {scopes scopes' : List Scope}

theorem findSome?_eq (h : Alike vars depth scopes scopes') (hx : x ∈ vars) :
    scopes'.findSome? (·.get? x) = scopes.findSome? (·.get? x) := by
  induction h with
  | seen hget _ => exact hget x hx
  | opened hscope _ ih => rw [List.findSome?_cons, List.findSome?_cons, hscope x hx, ih]

theorem contains_eq {top top' : Scope} {outer outer' : List Scope}
    (h : Alike vars depth (top :: outer) (top' :: outer')) (hx : x ∈ vars) :
    top'.contains x = top.contains x := by
  cases h with
  | seen _ hcontains => exact hcontains x hx
  | opened hscope _ => exact Scope.SameOn.contains_eq hscope hx

/-- An assignment may find its variable at different depths, but it finds one in both or in none. -/
theorem assignIn (h : Alike vars depth scopes scopes') (hx : x ∈ vars) (v : Value) :
    Option.Rel (Alike vars depth) (Context.assignIn x v scopes) (Context.assignIn x v scopes') := by
  induction h with
  | @seen top top' outer outer' hget hcontains =>
      have hsome := isSome_assignIn x v (top' :: outer')
      rw [hget x hx, ← isSome_assignIn x v (top :: outer)] at hsome
      cases ha : Context.assignIn x v (top :: outer) with
      | none =>
          rw [ha, Option.isSome_none, Option.isSome_eq_false_iff, Option.isNone_iff_eq_none] at hsome
          rw [hsome]
          exact .none
      | some after =>
          rw [ha, Option.isSome_some, Option.isSome_iff_exists] at hsome
          obtain ⟨after', ha'⟩ := hsome
          obtain ⟨t, o, rfl⟩ := List.exists_cons_of_length_eq_add_one (length_assignIn ha)
          obtain ⟨t', o', rfl⟩ := List.exists_cons_of_length_eq_add_one (length_assignIn ha')
          rw [ha']
          refine .some (.seen (fun y hy => ?_) (fun y hy => ?_))
          · rw [findSome?_assignIn ha, findSome?_assignIn ha', hget y hy]
          · have hkept : t.contains y = top.contains y := any_contains_assignIn ha 0 y
            have hkept' : t'.contains y = top'.contains y := any_contains_assignIn ha' 0 y
            rw [hkept, hkept', hcontains y hy]
  | @opened depth scope scope' rest rest' hscope hrest ih =>
      exact rel_assignIn_cons (Scope.SameOn.contains_eq hscope hx) ih
        (.opened (Scope.SameOn.insert hscope x v) hrest) (.opened hscope)

theorem insert {top top' : Scope} {outer outer' : List Scope}
    (h : Alike vars depth (top :: outer) (top' :: outer')) (x : String) (v : Value) :
    Alike vars depth (top.insert x v :: outer) (top'.insert x v :: outer') := by
  cases h with
  | seen hget hcontains =>
      refine .seen (fun y hy => ?_) (fun y hy => ?_)
      · rw [findSome?_insert, findSome?_insert, hget y hy]
      · rw [Bindings.contains_insert, Bindings.contains_insert, hcontains y hy]
  | opened hscope hrest => exact .opened (Scope.SameOn.insert hscope x v) hrest

end Alike

end Context

/-- Two worlds that look the same to a program, and will do so when `depth` scopes are closed. -/
structure World.Alike (vars callees : List String) (depth : Nat) (w w' : World) : Prop where
  function?_eq : ∀ f ∈ callees, w'.context.function? f = w.context.function? f
  output_eq : w'.output = w.output
  scopes : Context.Alike vars depth w.context.scopes w'.context.scopes

namespace World.Alike

variable {vars callees : List String} {depth : Nat} {w w' : World}

theorem push (h : w.Alike vars callees depth w') : w.push.Alike vars callees (depth + 1) w'.push :=
  ⟨h.function?_eq, h.output_eq, .opened (fun _ _ => rfl) h.scopes⟩

theorem pop (h : w.Alike vars callees (depth + 1) w') : w.pop.Alike vars callees depth w'.pop := by
  obtain ⟨⟨functions, top, outer⟩, output, trace⟩ := w
  obtain ⟨⟨functions', top', outer'⟩, output', trace'⟩ := w'
  obtain ⟨hfunctions, houtput, hscopes⟩ := h
  cases hscopes with
  | opened _ hrest => cases hrest with
    | seen hget hcontains => exact ⟨hfunctions, houtput, .seen hget hcontains⟩
    | opened hscope hrest => exact ⟨hfunctions, houtput, .opened hscope hrest⟩

end World.Alike

namespace Eval

variable {vars callees : List String} {depth : Nat} {x : String}

/-- A computation does the same in worlds that look the same. -/
abbrev SeesOnly (vars callees : List String) (depth : Nat) {α : Type} (m : Eval α) : Prop :=
  Simulates (World.Alike vars callees depth) id m m

theorem seesOnly_lookup (hx : x ∈ vars) (line : Nat) :
    SeesOnly vars callees depth (lookup x line) :=
  fun _ _ h => .lookup h (h.scopes.findSome?_eq hx) line

theorem seesOnly_assign (hx : x ∈ vars) (v : Value) (line : Nat) :
    SeesOnly vars callees depth (assign x v line) := by
  intro w w' h
  refine .assign h (h.scopes.assignIn hx v) (fun {c c'} hc hc' hscopes => ?_) line
  refine ⟨fun f hf => ?_, h.output_eq, hscopes⟩
  change c'.functions.get? f = c.functions.get? f
  rw [hc, hc']
  exact h.function?_eq f hf

theorem seesOnly_declare (hx : x ∈ vars) (v : Value) (line : Nat) :
    SeesOnly vars callees depth (declare x v line) :=
  fun _ _ h => .declare h (h.scopes.contains_eq hx)
    ⟨h.function?_eq, h.output_eq, h.scopes.insert x v⟩

theorem seesOnly_call {f : String} (hf : f ∈ callees) (vs : List Value) (line : Nat) :
    SeesOnly vars callees depth (call f vs line) :=
  fun _ _ h => .call h (h.function?_eq f hf)
    ⟨h.function?_eq, congrArg (· ++ _) h.output_eq, h.scopes⟩ vs line

end Eval

section Programs

variable {vars callees : List String}

theorem World.Alike.lockstep (vars callees own : List String) :
    Lockstep (World.Alike vars callees) vars callees own :=
  ⟨seesOnly_lookup, seesOnly_assign, fun hx _ => seesOnly_declare hx, seesOnly_call, push, pop⟩

theorem Statement.seesOnly_evalFrom {body : List Statement} {depth : Nat}
    (h : ∀ s ∈ body, s.vars ⊆ vars → s.callees ⊆ callees → SeesOnly vars callees depth s.eval)
    (hv : varsAll body ⊆ vars) (hc : calleesAll body ⊆ callees) (last : Option Value) :
    SeesOnly vars callees depth (evalFrom last body) :=
  Lockstep.evalFrom (fun s hs hv hc _ => h s hs hv hc) hv hc (fun _ => List.Subset.refl _) last

theorem Statement.seesOnly_eval {s : Statement} (hv : s.vars ⊆ vars) (hc : s.callees ⊆ callees)
    (depth : Nat) : SeesOnly vars callees depth s.eval :=
  (World.Alike.lockstep vars callees s.declared).statement hv hc fun _ => List.Subset.refl _

end Programs

/-- A program does the same in contexts that look the same to it: it gives the same value or error and
prints the same, and the contexts that it leaves look the same to it again. -/
theorem Block.evalProgram_looksLike {b : Block} {c c' : Context}
    (h : c.LooksLike b.vars b.callees c') :
    let r := Run.ofEval c b.evalProgram
    let r' := Run.ofEval c' b.evalProgram
    r'.result = r.result ∧ r'.world.output = r.world.output ∧
      r.world.context.LooksLike b.vars b.callees r'.world.context := by
  have hstart : (World.start c).Alike b.vars b.callees 0 (World.start c') :=
    ⟨h.function?_eq, rfl, .seen h.get?_eq h.owns_eq⟩
  have hprogram : SeesOnly b.vars b.callees 0 b.evalProgram :=
    Statement.seesOnly_evalFrom (fun s _ hv hc => s.seesOnly_eval hv hc 0) (List.Subset.refl _)
      (List.Subset.refl _) none
  have hagree := hprogram hstart
  have hend : ∀ {w w' : World}, w.Alike b.vars b.callees 0 w' →
      w.context.LooksLike b.vars b.callees w'.context := fun hw =>
    ⟨fun _ hx => hw.scopes.findSome?_eq hx, fun _ hx => hw.scopes.contains_eq hx, hw.function?_eq⟩
  simp only [Run.ofEval]
  generalize b.evalProgram (World.start c) = result at hagree
  generalize b.evalProgram (World.start c') = result' at hagree
  cases hagree with
  | ok hw => exact ⟨rfl, hw.output_eq, hend hw⟩
  | error hw => exact ⟨rfl, hw.output_eq, hend hw⟩

/-- The variable is found one scope up in the first context and two in the second, where a scope
further out has another of its name. -/
theorem Block.evalProgram_looksLike_deeper :
    let b : Block :=
      { line := 1
        statements := [.block 1 [.expression (.assign 1 "x" (.not 1 (.name 1 "x"))),
            .declare 2 "x" (.call 2 "print" [.name 2 "x"])],
          .declare 3 "x" (.name 3 "x")] }
    let print : HostFunction := ⟨.atLeast 0, Builtin.print⟩
    let scope (v : Bool) : Scope := Bindings.empty.insert "x" (.bool v)
    let c : Context := ⟨Bindings.empty.insert "print" print, .empty, [scope true]⟩
    let c' : Context := ⟨(Bindings.empty.insert "x" print).insert "print" print,
      Bindings.empty.insert "y" (.bool true), [.empty, scope true, scope false]⟩
    let r := Run.ofEval c b.evalProgram
    let r' := Run.ofEval c' b.evalProgram
    c.LooksLike b.vars b.callees c' ∧ r'.result = r.result ∧ r'.world.output = r.world.output ∧
      r.world.context.LooksLike b.vars b.callees r'.world.context := by
  intro b print scope c c' r r'
  have h : c.LooksLike b.vars b.callees c' := by
    refine ⟨by decide, by decide, fun f hf => ?_⟩
    obtain rfl := List.mem_singleton.1 hf
    rfl
  exact ⟨h, evalProgram_looksLike h⟩

end Abacus
