import Mathlib.Data.List.Forall2
import Abacus.Proofs.Eval.Footprint
import Abacus.Proofs.Eval.Lines
import Abacus.Session

/-!
Statements that have nothing to do with each other can be run in either order. What a statement does is
bounded twice: it changes no variables but those that it declares or assigns, and it depends on no
variables but its own. If what each of two statements can change is of no concern to the other, then
either of them does, before the other one, what it would have done after it. Only what they print shows
their order.
-/
namespace Abacus

open Eval

namespace Statement

mutual

/-- The names that a statement declares or assigns, those of inner blocks included. -/
def written : Statement → List String
  | declare _ x e => e.assigned ++ [x]
  | expression e => e.assigned
  | block _ body => writtenAll body

def writtenAll : List Statement → List String
  | [] => []
  | s :: rest => s.written ++ writtenAll rest

end

end Statement

theorem append_subset_append {xs ys zs ws : List String} (h : xs ⊆ zs) (h' : ys ⊆ ws) :
    xs ++ ys ⊆ zs ++ ws :=
  List.append_subset.2
    ⟨List.subset_append_of_subset_left ws h, List.subset_append_of_subset_right zs h'⟩

theorem Expr.assigned_subset_vars (e : Expr) : e.assigned ⊆ e.vars := by
  induction e with
  | number _ _ | name _ _ => exact List.nil_subset _
  | negate _ e ih | not _ e ih | group e ih => exact ih
  | call _ _ es ih =>
      change assignedAll es ⊆ varsAll es
      induction es with
      | nil => exact List.nil_subset _
      | cons e es ihs =>
          obtain ⟨he, hes⟩ := List.forall_mem_cons.1 ih
          exact append_subset_append he (ihs hes)
  | binary _ _ l r ihl ihr => exact append_subset_append ihl ihr
  | assign _ x e ih =>
      refine List.append_subset.2 ⟨List.subset_cons_of_subset x ih, ?_⟩
      exact List.cons_subset_cons x (List.nil_subset _)

theorem Statement.written_subset_vars (s : Statement) : s.written ⊆ s.vars := by
  induction s with
  | declare _ x e =>
      refine List.append_subset.2 ⟨List.subset_cons_of_subset x e.assigned_subset_vars, ?_⟩
      exact List.cons_subset_cons x (List.nil_subset _)
  | expression e => exact e.assigned_subset_vars
  | block _ body ih =>
      change writtenAll body ⊆ varsAll body
      induction body with
      | nil => exact List.nil_subset _
      | cons s body ihs =>
          obtain ⟨hs, hbody⟩ := List.forall_mem_cons.1 ih
          exact append_subset_append hs (ihs hbody)

theorem Statement.freeAssigned_subset_written (s : Statement) : s.freeAssigned ⊆ s.written := by
  induction s with
  | declare _ x e => exact List.subset_append_left _ _
  | expression e => exact List.Subset.refl _
  | block _ body ih =>
      change freeAssignedAll body ⊆ writtenAll body
      induction body with
      | nil => exact List.nil_subset _
      | cons s body ihs =>
          obtain ⟨hs, hbody⟩ := List.forall_mem_cons.1 ih
          exact append_subset_append hs fun x hx => ihs hbody (List.mem_of_mem_filter hx)

theorem Statement.declared_subset_written (s : Statement) : s.declared ⊆ s.written := by
  cases s with
  | declare _ x e => exact List.subset_append_right _ _
  | expression _ | block _ _ => exact List.nil_subset _

namespace Context

/-- Two stacks of as many scopes that have, one by one, the same values for the given names. -/
abbrev SameOn (vars : List String) : List Scope → List Scope → Prop :=
  List.Forall₂ (Scope.SameOn vars)

namespace SameOn

variable {vars : List String} {scopes scopes' : List Scope} {x : String}

theorem findSome?_eq (h : SameOn vars scopes scopes') (hx : x ∈ vars) :
    scopes'.findSome? (·.get? x) = scopes.findSome? (·.get? x) := by
  induction h with
  | nil => rfl
  | cons hscope _ ih => rw [List.findSome?_cons, List.findSome?_cons, hscope x hx, ih]

theorem assignIn (h : SameOn vars scopes scopes') (hx : x ∈ vars) (v : Value) :
    Option.Rel (SameOn vars) (Context.assignIn x v scopes) (Context.assignIn x v scopes') := by
  induction h with
  | nil => exact .none
  | cons hscope hrest ih =>
      exact rel_assignIn_cons (hscope.contains_eq hx) ih (.cons (hscope.insert x v) hrest)
        (.cons hscope)

theorem symm (h : SameOn vars scopes scopes') : SameOn vars scopes' scopes := by
  induction h with
  | nil => exact .nil
  | cons hscope _ ih => exact .cons (fun x hx => (hscope x hx).symm) ih

theorem iff_valueAt {c c' : Context} : SameOn vars c.scopes c'.scopes ↔
    c'.depth = c.depth ∧ ∀ x ∈ vars, ∀ index, c'.valueAt index x = c.valueAt index x := by
  rw [SameOn, List.forall₂_iff_get]
  constructor
  · rintro ⟨hlength, hget⟩
    refine ⟨hlength.symm, fun x hx index => ?_⟩
    by_cases hi : index < c.scopes.length
    · have hi' : index < c'.scopes.length := hlength ▸ hi
      rw [valueAt, valueAt, List.getElem?_eq_getElem hi, List.getElem?_eq_getElem hi']
      exact hget index hi hi' x hx
    · have hi' : ¬ index < c'.scopes.length := hlength ▸ hi
      rw [valueAt, valueAt, List.getElem?_eq_none (Nat.le_of_not_lt hi),
        List.getElem?_eq_none (Nat.le_of_not_lt hi')]
  · rintro ⟨hdepth, hvalue⟩
    refine ⟨hdepth.symm, fun index hi hi' x hx => ?_⟩
    have heq := hvalue x hx index
    rwa [valueAt, valueAt, List.getElem?_eq_getElem hi, List.getElem?_eq_getElem hi'] at heq

end SameOn

end Context

/-- Functions of which those with the given names print nothing. -/
def Bindings.Silent (names : List String) (functions : Bindings HostFunction) : Prop :=
  ∀ name ∈ names, ∀ f ∈ functions.get? name, ∀ vs line, (f.call name vs line).printed = ""

/-- Of the built-in functions, only one prints. -/
theorem Builtin.printed_call_of_mem {name : String} {f : HostFunction} (h : (name, f) ∈ table)
    (hname : name ≠ "print") (vs : List Value) (line : Nat) : (f.call name vs line).printed = "" := by
  unfold HostFunction.call
  split
  · simp only [table, List.mem_cons, List.not_mem_nil, or_false, Prod.mk.injEq] at h
    obtain ⟨rfl, -⟩ | ⟨-, rfl⟩ | ⟨-, rfl⟩ | ⟨-, rfl⟩ | ⟨-, rfl⟩ | ⟨-, rfl⟩ := h
    · exact absurd rfl hname
    all_goals rfl
  · rfl

theorem Context.silent_of_function?_eq {c : Context} {names : List String}
    (hfunctions : ∀ name, c.function? name = withBuiltins.function? name)
    (hprint : "print" ∉ names) : c.functions.Silent names := by
  intro name hname f hf vs line
  have hentry : Bindings.findEntry name Builtin.table = some f := (hfunctions name).symm.trans hf
  exact Builtin.printed_call_of_mem (Bindings.mem_of_findEntry hentry)
    (ne_of_mem_of_not_mem hname hprint) vs line

/-- Two worlds that have the same functions and, scope by scope, the same values for the given names,
and in which the same has been printed since it was `before` in the one and `before'` in the other:
nothing, if only silent functions were called. -/
structure World.Beside (vars callees : List String) (before before' : String) (w w' : World) :
    Prop where
  functions_eq : w'.context.functions = w.context.functions
  printed : ∃ printed, w.output = before ++ printed ∧ w'.output = before' ++ printed ∧
    (w.context.functions.Silent callees → printed = "")
  scopes : Context.SameOn vars w.context.scopes w'.context.scopes

namespace World.Beside

variable {vars callees : List String} {before before' : String} {w w' : World}

theorem push (h : w.Beside vars callees before before' w') :
    w.push.Beside vars callees before before' w'.push :=
  ⟨h.functions_eq, h.printed, .cons (fun _ _ => rfl) h.scopes⟩

theorem pop (h : w.Beside vars callees before before' w') :
    w.pop.Beside vars callees before before' w'.pop := by
  obtain ⟨⟨functions, top, outer⟩, output, trace⟩ := w
  obtain ⟨⟨functions', top', outer'⟩, output', trace'⟩ := w'
  obtain ⟨hfunctions, hprinted, hscopes⟩ := h
  obtain ⟨htop, houter⟩ := List.forall₂_cons.1 hscopes
  cases houter with
  | nil => exact ⟨hfunctions, hprinted, .cons htop .nil⟩
  | cons hscope hrest => exact ⟨hfunctions, hprinted, .cons hscope hrest⟩

theorem assign (h : w.Beside vars callees before before' w') {x : String} (hx : x ∈ vars) (v : Value)
    (line : Nat) :
    Agree (World.Beside vars callees before before') id (assign x v line w) (assign x v line w') := by
  refine .assign h (h.scopes.assignIn hx v) (fun {c c'} hc hc' hscopes => ?_) line
  refine ⟨hc'.trans (h.functions_eq.trans hc.symm), ?_, hscopes⟩
  rw [hc]
  exact h.printed

theorem declare (h : w.Beside vars callees before before' w') {x : String} (hx : x ∈ vars)
    (v : Value) (line : Nat) :
    Agree (World.Beside vars callees before before') id (declare x v line w)
      (declare x v line w') := by
  obtain ⟨htop, houter⟩ := List.forall₂_cons.1 h.scopes
  exact .declare h (htop.contains_eq hx) ⟨h.functions_eq, h.printed, .cons (htop.insert x v) houter⟩

theorem call (h : w.Beside vars callees before before' w') {f : String} (hf : f ∈ callees)
    (vs : List Value) (line : Nat) :
    Agree (World.Beside vars callees before before') id (call f vs line w) (call f vs line w') := by
  simp only [Eval.call, Context.function?, h.functions_eq]
  cases hg : w.context.functions.get? f with
  | none => exact .error h
  | some g =>
      obtain ⟨printed, hw, hw', hsilent⟩ := h.printed
      refine simulates_lift_self _ ⟨h.functions_eq, ⟨printed ++ (g.call f vs line).printed, ?_, ?_, ?_⟩,
        h.scopes⟩
      · simp only [World.note, hw, String.append_assoc]
      · simp only [World.note, hw', String.append_assoc]
      · intro hfunctions
        rw [hsilent hfunctions, hfunctions f hf g hg vs line]
        rfl

theorem lockstep (vars callees : List String) (before before' : String) :
    Lockstep (fun _ => World.Beside vars callees before before') vars callees vars where
  lookup := fun hx line _ _ h => .lookup h (h.scopes.findSome?_eq hx) line
  assign := fun hx v line _ _ h => h.assign hx v line
  declare := fun hx _ v line _ _ h => h.declare hx v line
  call := fun hf vs line _ _ h => h.call hf vs line
  push := push
  pop := pop

end World.Beside

namespace Statement

variable {s t : Statement} {v v' : Option Value} {w m u w' : World} {vars : List String}

/-- A statement depends on nothing but its variables. -/
theorem exists_eval_of_sameOn (h : s.eval w = .ok v u)
    (hfunctions : w'.context.functions = w.context.functions)
    (hscopes : Context.SameOn s.vars w.context.scopes w'.context.scopes) :
    ∃ u', s.eval w' = .ok v u' ∧ u.Beside s.vars s.callees w.output w'.output u' := by
  have hstart : w.Beside s.vars s.callees w.output w'.output w' :=
    ⟨hfunctions, ⟨"", String.append_empty.symm, String.append_empty.symm, fun _ => rfl⟩, hscopes⟩
  have hagree := @Lockstep.statement _ _ _ _ 0 (World.Beside.lockstep _ _ _ _) s
    (List.Subset.refl _) (List.Subset.refl _) (fun _ => s.declared_subset_vars) w w' hstart
  rw [h] at hagree
  generalize s.eval w' = result at hagree
  cases hagree with
  | ok hu => exact ⟨_, rfl, hu⟩

/-- Whatever a statement does not write keeps its value in every scope. -/
theorem valueAt_eq_of_eval (h : s.eval w = .ok v u) {x : String} (hx : x ∉ s.written) (index : Nat) :
    u.context.valueAt index x = w.context.valueAt index x := by
  have htouches := s.touches_eval w
  rw [worldAfter, h] at htouches
  obtain heq | ⟨-, hmem⟩ | ⟨hmem, -⟩ := htouches.valueAt_eq index x
  · exact heq
  · exact absurd (s.declared_subset_written hmem) hx
  · exact absurd (s.freeAssigned_subset_written hmem) hx

theorem sameOn_of_eval (h : s.eval w = .ok v u) (hvars : ∀ x ∈ s.written, x ∉ vars) :
    Context.SameOn vars w.context.scopes u.context.scopes :=
  Context.SameOn.iff_valueAt.2 ⟨(s.keeps_eval.of_eq_ok h).depth_eq,
    fun x hx index => valueAt_eq_of_eval h (fun hw => hvars x hw hx) index⟩

/-- A statement does before another one what it does after it, if neither writes what the other uses. -/
theorem exists_eval_swap (hst : ∀ x ∈ s.written, x ∉ t.vars) (hts : ∀ x ∈ t.written, x ∉ s.vars)
    (hsilent : w.context.functions.Silent s.callees ∨ w.context.functions.Silent t.callees)
    (hs : s.eval w = .ok v m) (ht : t.eval m = .ok v' u) :
    ∃ m' u', t.eval w = .ok v' m' ∧ s.eval m' = .ok v u' ∧ u'.output = u.output ∧
      u'.context.depth = u.context.depth ∧
      ∀ index x, u'.context.valueAt index x = u.context.valueAt index x := by
  have hkeeps := s.keeps_eval.of_eq_ok hs
  have hkeeps' := t.keeps_eval.of_eq_ok ht
  -- What `s` has changed is of no concern to `t`, and then what `t` has changed is of none to `s`.
  obtain ⟨m', ht', hm'⟩ := exists_eval_of_sameOn ht hkeeps.functions_eq.symm
    (sameOn_of_eval hs hst).symm
  obtain ⟨u', hs', hu'⟩ := exists_eval_of_sameOn hs (t.keeps_eval.of_eq_ok ht').functions_eq
    (sameOn_of_eval ht' hts)
  obtain ⟨hdepth, hvalue⟩ := Context.SameOn.iff_valueAt.1 hm'.scopes
  obtain ⟨hdepth', hvalue'⟩ := Context.SameOn.iff_valueAt.1 hu'.scopes
  refine ⟨m', u', ht', hs', ?_, hdepth'.trans hkeeps'.depth_eq.symm, fun index x => ?_⟩
  · obtain ⟨printed, hu, hm, ht⟩ := hm'.printed
    obtain ⟨printed', hm₀, hu₀, hs⟩ := hu'.printed
    rw [hkeeps'.functions_eq, hkeeps.functions_eq] at ht
    rw [hkeeps.functions_eq] at hs
    rw [hu₀, hm, hu, hm₀]
    obtain hsilent | hsilent := hsilent
    · rw [hs hsilent, String.append_empty, String.append_empty]
    · rw [ht hsilent, String.append_empty, String.append_empty]
  · -- A variable has the value that its own statement gave it, or neither of the two has changed it.
    by_cases hxs : x ∈ s.vars
    · rw [hvalue' x hxs, valueAt_eq_of_eval ht (fun hw => hts x hw hxs)]
    · rw [valueAt_eq_of_eval hs' (fun hw => hxs (s.written_subset_vars hw))]
      by_cases hxt : x ∈ t.vars
      · exact hvalue x hxt index
      · have hws : x ∉ s.written := fun hw => hxs (s.written_subset_vars hw)
        have hwt : x ∉ t.written := fun hw => hxt (t.written_subset_vars hw)
        rw [valueAt_eq_of_eval ht' hwt, valueAt_eq_of_eval ht hwt, valueAt_eq_of_eval hs hws]

end Statement

theorem Eval.bind_bind_eq_ok_iff {α β γ : Type} {x : Eval α} {y : Eval β} {f : α → β → γ} {c : γ}
    {w u : World} :
    (do let a ← x; let b ← y; return f a b : Eval γ) w = .ok c u ↔
      ∃ a m b, x w = .ok a m ∧ y m = .ok b u ∧ f a b = c := by
  simp only [bind_eq_ok_iff]
  constructor
  · rintro ⟨a, m, hx, b, n, hy, hc⟩
    cases hc
    exact ⟨a, m, b, hx, hy, rfl⟩
  · rintro ⟨a, m, b, hx, hy, rfl⟩
    exact ⟨a, m, hx, b, u, hy, rfl⟩

theorem Run.exists_of_result_eq_ok {α : Type} {c : Context} {x : Eval α} {a : α}
    (h : (ofEval c x).result = .ok a) : ∃ u, x (.start c) = .ok a u ∧ ofEval c x = ⟨.ok a, u⟩ := by
  unfold ofEval at h ⊢
  cases hx : x (.start c) with
  | ok b u =>
      rw [hx] at h
      cases h
      exact ⟨u, rfl, rfl⟩
  | error e u =>
      rw [hx] at h
      cases h

theorem Run.ofEval_eq_of_eq_ok {α : Type} {c : Context} {x : Eval α} {a : α} {u : World}
    (h : x (.start c) = .ok a u) : ofEval c x = ⟨.ok a, u⟩ := by
  rw [ofEval, h]

/-- Two statements can be exchanged if neither declares or assigns, anywhere inside, a variable that
occurs in the other, and not both print. If both succeed in one order they do in the other, with the
same values, the same output and the same values of all variables in all scopes. -/
theorem Statement.eval_comm {s t : Statement} {c : Context}
    (hfunctions : ∀ name, c.function? name = Context.withBuiltins.function? name)
    (hst : ∀ x ∈ s.written, x ∉ t.vars) (hts : ∀ x ∈ t.written, x ∉ s.vars)
    (hprint : "print" ∉ s.callees ∨ "print" ∉ t.callees) (values : Option Value × Option Value) :
    let r := Run.ofEval c do
      let v ← s.eval
      let v' ← t.eval
      return (v, v')
    let r' := Run.ofEval c do
      let v' ← t.eval
      let v ← s.eval
      return (v, v')
    (r.result = .ok values ↔ r'.result = .ok values) ∧
      (r.result = .ok values →
        r'.world.output = r.world.output ∧ r'.world.context.depth = r.world.context.depth ∧
          ∀ index x, r'.world.context.valueAt index x = r.world.context.valueAt index x) := by
  intro r r'
  have hsilent : c.functions.Silent s.callees ∨ c.functions.Silent t.callees :=
    hprint.imp (Context.silent_of_function?_eq hfunctions)
      (Context.silent_of_function?_eq hfunctions)
  have hforth : r.result = .ok values → r'.result = .ok values ∧
      r'.world.output = r.world.output ∧ r'.world.context.depth = r.world.context.depth ∧
        ∀ index x, r'.world.context.valueAt index x = r.world.context.valueAt index x := by
    intro h
    obtain ⟨u, hrun, hr⟩ := Run.exists_of_result_eq_ok h
    obtain ⟨v, m, v', hs, ht, rfl⟩ := bind_bind_eq_ok_iff.1 hrun
    obtain ⟨m', u', ht', hs', hsame⟩ := exists_eval_swap hst hts hsilent hs ht
    have hr' : r' = ⟨.ok (v, v'), u'⟩ :=
      Run.ofEval_eq_of_eq_ok (bind_bind_eq_ok_iff.2 ⟨v', m', v, ht', hs', rfl⟩)
    rw [show r = _ from hr, hr']
    exact ⟨rfl, hsame⟩
  have hback : r'.result = .ok values → r.result = .ok values := by
    intro h
    obtain ⟨u, hrun, -⟩ := Run.exists_of_result_eq_ok h
    obtain ⟨v', m, v, ht, hs, rfl⟩ := bind_bind_eq_ok_iff.1 hrun
    obtain ⟨m', u', hs', ht', -⟩ := exists_eval_swap hts hst hsilent.symm ht hs
    exact congrArg Run.result
      (Run.ofEval_eq_of_eq_ok (bind_bind_eq_ok_iff.2 ⟨v, m', v', hs', ht', rfl⟩))
  exact ⟨⟨fun h => (hforth h).1, hback⟩, fun h => (hforth h).2⟩

/-- Two blocks that both read a variable of the innermost scope and assign others, the one inside an
operand and the other inside an argument that it prints. -/
theorem Statement.eval_comm_blocks :
    let s : Statement := .block 1 [.declare 1 "a" (.name 1 "x"),
      .expression (.binary 2 .and (.assign 2 "y" (.not 2 (.name 2 "a"))) (.name 2 "x"))]
    let t : Statement := .block 3 [.declare 3 "b" (.not 3 (.name 3 "x")),
      .expression (.call 4 "print" [.assign 4 "z" (.name 4 "b"), .name 4 "x"])]
    let scope (x : String) (v : Bool) : Scope := Bindings.empty.insert x (.bool v)
    let c : Context :=
      ⟨Context.withBuiltins.functions, (scope "x" true).insert "y" (.bool true), [scope "z" true]⟩
    let r' := Run.ofEval c do
      let v' ← t.eval
      let v ← s.eval
      return (v, v')
    "print" ∉ s.callees ∧ r'.result = .ok (some (.bool false), some (.bool true)) ∧
      r'.world.output = "false true\n" ∧ r'.world.context.valueAt 0 "y" = some (.bool false) ∧
      r'.world.context.valueAt 1 "z" = some (.bool false) := by
  intro s t scope c r'
  have hprint : "print" ∉ s.callees := by decide
  obtain ⟨hresult, hsame⟩ := eval_comm (s := s) (t := t) (c := c) (fun _ => rfl) (by decide)
    (by decide) (.inl hprint) (some (.bool false), some (.bool true))
  obtain ⟨houtput, -, hvalue⟩ := hsame (by with_unfolding_all rfl)
  refine ⟨hprint, hresult.1 ?_, houtput.trans ?_, (hvalue 0 "y").trans ?_, (hvalue 1 "z").trans ?_⟩
  all_goals with_unfolding_all rfl

end Abacus
