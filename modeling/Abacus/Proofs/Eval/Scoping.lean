import Abacus.Proofs.Eval.Simulation
import Abacus.Proofs.Syntax.Names

/-!
What evaluation can do to the scopes of a context. Only a declaration binds a new name, and only in
the innermost scope; assignments change values and nothing else; a block closes the scope that it has
opened. None of this depends on how an evaluation ends, so the scopes are the same, up to values and
declared names, after an error anywhere inside.
-/
namespace Abacus

namespace Bindings

variable {α : Type} (b : Bindings α) (name x : String) (a : α)

theorem contains_insert : (b.insert name a).contains x = (decide (x = name) || b.contains x) := by
  simp only [contains, get?_insert]
  by_cases h : x = name <;> simp [h]

/-- Another value for a name binds no new one. -/
theorem contains_insert_of_contains (h : b.contains name) :
    (b.insert name a).contains x = b.contains x := by
  rw [contains_insert]
  by_cases hx : x = name
  · subst hx
    simp [h]
  · simp [hx]

end Bindings

/-- Two scopes that have the same values for the given names. -/
def Scope.SameOn (vars : List String) (scope scope' : Scope) : Prop :=
  ∀ x ∈ vars, scope'.get? x = scope.get? x

namespace Scope.SameOn

variable {vars : List String} {scope scope' : Scope} {x : String}

theorem contains_eq (h : SameOn vars scope scope') (hx : x ∈ vars) :
    scope'.contains x = scope.contains x := by
  rw [Bindings.contains, Bindings.contains, h x hx]

theorem insert (h : SameOn vars scope scope') (x : String) (v : Value) :
    SameOn vars (scope.insert x v) (scope'.insert x v) := by
  intro y hy
  rw [Bindings.get?_insert, Bindings.get?_insert, h y hy]

end Scope.SameOn

namespace Context

/-- Whether the scope at an index, counted from the inside out, has a variable of that name. -/
def owns (c : Context) (index : Nat) (x : String) : Bool :=
  c.scopes[index]?.any (·.contains x)

/-- The second context has the scopes and functions of the first. Variables may have other values, and
some of the declared names may be new in the innermost scope. -/
structure Keeps (declared : List String) (c c' : Context) : Prop where
  depth_eq : c'.depth = c.depth
  functions_eq : c'.functions = c.functions
  owns_of_owns : ∀ index x, c.owns index x → c'.owns index x
  new_name : ∀ index x, c'.owns index x → c.owns index x ∨ index = 0 ∧ x ∈ declared

section Assignment

variable {c c' : Context} {x : String} {v : Value} {line : Nat}

theorem length_assignIn {scopes scopes' : List Scope} (h : assignIn x v scopes = some scopes') :
    scopes'.length = scopes.length := by
  induction scopes generalizing scopes' with
  | nil => cases h
  | cons scope rest ih =>
      rw [assignIn] at h
      split at h
      · cases h
        rfl
      · obtain ⟨rest', hrest, rfl⟩ := Option.map_eq_some_iff.1 h
        rw [List.length_cons, List.length_cons, ih hrest]

/-- An assignment finds its variable; it does not make one. -/
theorem any_contains_assignIn {scopes scopes' : List Scope}
    (h : assignIn x v scopes = some scopes') (index : Nat) (y : String) :
    scopes'[index]?.any (·.contains y) = scopes[index]?.any (·.contains y) := by
  induction scopes generalizing scopes' index with
  | nil => cases h
  | cons scope rest ih =>
      rw [assignIn] at h
      split at h
      · next hx =>
        cases h
        cases index with
        | zero => exact Bindings.contains_insert_of_contains scope x y v hx
        | succ index => rfl
      · obtain ⟨rest', hrest, rfl⟩ := Option.map_eq_some_iff.1 h
        cases index with
        | zero => rfl
        | succ index => exact ih hrest index

/-- An assignment goes through all scopes alike, the innermost first. -/
theorem assign_eq_ok_iff : c.assign x v line = .ok c' ↔
    c'.functions = c.functions ∧ assignIn x v c.scopes = some c'.scopes := by
  obtain ⟨functions, top, outer⟩ := c
  obtain ⟨functions', top', outer'⟩ := c'
  simp only [assign, scopes, assignIn]
  split
  · simp [eq_comm]
  · cases assignIn x v outer <;> simp [eq_comm]

theorem assign_eq_error_iff {e : RuntimeError} : c.assign x v line = .error e ↔
    assignIn x v c.scopes = none ∧ e = .unknownVariable x line := by
  simp only [assign, scopes, assignIn]
  split
  · simp
  · cases assignIn x v c.outer <;> simp [eq_comm]

theorem exists_assign_eq_ok {c : Context} {z : String} {v : Value} {scopes : List Scope}
    (h : assignIn z v c.scopes = some scopes) (line : Nat) :
    ∃ c', c.assign z v line = .ok c' ∧ c'.functions = c.functions ∧ c'.scopes = scopes := by
  cases hc : c.assign z v line with
  | error e =>
      obtain ⟨hnone, -⟩ := assign_eq_error_iff.1 hc
      rw [h] at hnone
      cases hnone
  | ok c' =>
      obtain ⟨hfunctions, hscopes⟩ := assign_eq_ok_iff.1 hc
      rw [h] at hscopes
      exact ⟨c', rfl, hfunctions, (Option.some.inj hscopes).symm⟩

/-- What a name stands for after an assignment. -/
theorem findSome?_assignIn {scopes scopes' : List Scope} (h : assignIn x v scopes = some scopes')
    (y : String) :
    scopes'.findSome? (·.get? y) = if y = x then some v else scopes.findSome? (·.get? y) := by
  induction scopes generalizing scopes' with
  | nil => cases h
  | cons scope rest ih =>
      rw [assignIn] at h
      split at h
      · cases h
        rw [List.findSome?_cons, List.findSome?_cons, Bindings.get?_insert]
        by_cases hy : y = x <;> simp [hy]
      · next hx =>
        obtain ⟨rest', hrest, rfl⟩ := Option.map_eq_some_iff.1 h
        rw [List.findSome?_cons, List.findSome?_cons, ih hrest]
        by_cases hy : y = x
        · rw [Bool.not_eq_true, Bindings.contains, Option.isSome_eq_false_iff,
            Option.isNone_iff_eq_none] at hx
          simp [hy, hx]
        · simp [hy]

/-- The names that can be assigned to are those that stand for something. -/
theorem isSome_assignIn (x : String) (v : Value) (scopes : List Scope) :
    (assignIn x v scopes).isSome = (scopes.findSome? (·.get? x)).isSome := by
  induction scopes with
  | nil => rfl
  | cons scope rest ih =>
      rw [assignIn, List.findSome?_cons]
      cases hx : scope.get? x <;> simp [Bindings.contains, hx, ih]

/-- An assignment to two stacks of which the innermost scopes have the same names. -/
theorem rel_assignIn_cons {S T : List Scope → List Scope → Prop} {scope scope' : Scope}
    {rest rest' : List Scope} (hcontains : scope'.contains x = scope.contains x)
    (hrest : Option.Rel S (assignIn x v rest) (assignIn x v rest'))
    (hhere : T (scope.insert x v :: rest) (scope'.insert x v :: rest'))
    (hthere : ∀ {after after'}, S after after' → T (scope :: after) (scope' :: after')) :
    Option.Rel T (assignIn x v (scope :: rest)) (assignIn x v (scope' :: rest')) := by
  simp only [assignIn, hcontains]
  cases scope.contains x with
  | true => exact .some hhere
  | false =>
      generalize assignIn x v rest = found at hrest
      generalize assignIn x v rest' = found' at hrest
      cases hrest with
      | none => exact .none
      | some hafter => exact .some (hthere hafter)

end Assignment

namespace Keeps

variable {declared more : List String} {c c' c'' : Context}

theorem refl (c : Context) : c.Keeps [] c :=
  ⟨rfl, rfl, fun _ _ h => h, fun _ _ h => .inl h⟩

theorem trans (h : c.Keeps declared c') (h' : c'.Keeps more c'') :
    c.Keeps (declared ++ more) c'' := by
  refine ⟨h'.depth_eq.trans h.depth_eq, h'.functions_eq.trans h.functions_eq,
    fun index x hx => h'.owns_of_owns index x (h.owns_of_owns index x hx), fun index x hx => ?_⟩
  obtain hx | ⟨hi, hx⟩ := h'.new_name index x hx
  · obtain hx | ⟨hi, hx⟩ := h.new_name index x hx
    · exact .inl hx
    · exact .inr ⟨hi, List.mem_append_left _ hx⟩
  · exact .inr ⟨hi, List.mem_append_right _ hx⟩

theorem mono (h : c.Keeps declared c') (hd : declared ⊆ more) : c.Keeps more c' :=
  { h with new_name := fun index x hx => (h.new_name index x hx).imp_right (.imp_right (hd ·)) }

theorem not_owns (h : c.Keeps declared c') {x : String} {index : Nat}
    (hx : c.owns index x = false) (hd : x ∉ declared) : c'.owns index x = false := by
  rw [← Bool.not_eq_true] at hx ⊢
  intro hx'
  obtain howns | ⟨_, hmem⟩ := h.new_name index x hx'
  · exact hx howns
  · exact hd hmem

theorem declare {x : String} {v : Value} {line : Nat} (h : c.declare x v line = .ok c') :
    c.Keeps [x] c' := by
  unfold Context.declare at h
  split at h
  · cases h
  · cases h
    refine ⟨rfl, rfl, fun index y hy => ?_, fun index y hy => ?_⟩
    · cases index with
      | zero =>
          change (c.top.insert x v).contains y
          rw [Bindings.contains_insert]
          exact Bool.or_eq_true_iff.2 (.inr hy)
      | succ index => exact hy
    · cases index with
      | zero =>
          change (c.top.insert x v).contains y at hy
          rw [Bindings.contains_insert, Bool.or_eq_true_iff, decide_eq_true_iff] at hy
          obtain rfl | hy := hy
          · exact .inr ⟨rfl, List.mem_singleton_self y⟩
          · exact .inl hy
      | succ index => exact .inl hy

theorem assign {x : String} {v : Value} {line : Nat} (h : c.assign x v line = .ok c') :
    c.Keeps [] c' := by
  obtain ⟨hfunctions, hscopes⟩ := assign_eq_ok_iff.1 h
  have howns : ∀ index y, c'.owns index y = c.owns index y := any_contains_assignIn hscopes
  refine ⟨length_assignIn hscopes, hfunctions, fun index y hy => ?_, fun index y hy => ?_⟩
  · rw [howns]
    exact hy
  · rw [howns] at hy
    exact .inl hy

/-- A scope that is opened and closed again takes with it what was declared in between. -/
theorem pop (h : c.push.Keeps declared c') : c.Keeps [] c'.pop := by
  obtain ⟨functions, top, outer⟩ := c'
  cases outer with
  | nil =>
      have hdepth := h.depth_eq
      simp [depth, scopes, push] at hdepth
  | cons scope outer =>
      refine ⟨Nat.succ.inj h.depth_eq, h.functions_eq, fun index x hx => ?_, fun index x hx => ?_⟩
      · exact h.owns_of_owns (index + 1) x hx
      · obtain hx | ⟨hi, _⟩ := h.new_name (index + 1) x hx
        · exact .inl hx
        · cases hi

end Keeps

end Context

namespace Eval

variable {α β : Type} {declared more : List String}

/-- The world that a computation leaves, whether it succeeds or fails. -/
def worldAfter (x : Eval α) (w : World) : World :=
  match x w with
  | .ok _ w' | .error _ w' => w'

theorem worldAfter_inScope (x : Eval α) (w : World) :
    (inScope x).worldAfter w = (x.worldAfter w.push).pop := by
  simp only [worldAfter, inScope]
  cases x w.push <;> rfl

theorem context_call (f : String) (vs : List Value) (line : Nat) (w : World) :
    ((call f vs line).worldAfter w).context = w.context := by
  simp only [worldAfter, call]
  cases w.context.function? f with
  | none => rfl
  | some g =>
      simp only [lift]
      cases (g.call f vs line).result <;> rfl

/-- A computation keeps the scopes of every context, up to the declared names. -/
def Keeps (declared : List String) (x : Eval α) : Prop :=
  ∀ w : World, w.context.Keeps declared (x.worldAfter w).context

theorem Keeps.of_eq_ok {m : Eval α} (hm : Keeps declared m) {w u : World}
    {a : α} (h : m w = .ok a u) : w.context.Keeps declared u.context := by
  have hw := hm w
  rwa [worldAfter, h] at hw

/-- What a computation keeps can be added to any comparison with it. -/
theorem Agree.and_keeps {R : World → World → Prop} {f : RuntimeError → RuntimeError} {m : Eval α}
    {w : World} {result : EStateM.Result RuntimeError World α} (h : Agree R f (m w) result)
    (hm : Keeps declared m) :
    Agree (fun u u' => R u u' ∧ w.context.Keeps declared u.context) f (m w) result := by
  have hw := hm w
  rw [worldAfter] at hw
  generalize m w = r at h hw
  cases h with
  | ok hu => exact .ok ⟨hu, hw⟩
  | error hu => exact .error ⟨hu, hw⟩

theorem keeps_pure (a : α) : Keeps [] (pure a) :=
  fun w => .refl w.context

theorem keeps_lift (result : Except RuntimeError α) : Keeps [] (lift result) := by
  intro w
  cases result <;> exact .refl w.context

theorem keeps_lookup (x : String) (line : Nat) : Keeps [] (lookup x line) := by
  intro w
  simp only [worldAfter, lookup]
  cases w.context.get? x <;> exact .refl w.context

theorem keeps_declare (x : String) (v : Value) (line : Nat) : Keeps [x] (declare x v line) := by
  intro w
  simp only [worldAfter, declare]
  cases hd : w.context.declare x v line with
  | error e => exact (Context.Keeps.refl w.context).mono (List.nil_subset _)
  | ok c => exact .declare hd

theorem keeps_assign (x : String) (v : Value) (line : Nat) : Keeps [] (assign x v line) := by
  intro w
  simp only [worldAfter, assign]
  cases ha : w.context.assign x v line with
  | error e => exact .refl w.context
  | ok c => exact .assign ha

theorem keeps_call (f : String) (vs : List Value) (line : Nat) : Keeps [] (call f vs line) := by
  intro w
  rw [context_call]
  exact .refl w.context

theorem Keeps.bind {x : Eval α} {next : α → Eval β} (hx : Keeps declared x)
    (hn : ∀ a, Keeps more (next a)) : Keeps (declared ++ more) (x >>= next) := by
  intro w
  have hw := hx w
  simp only [worldAfter, bind_apply] at hw ⊢
  cases hr : x w with
  | error e u =>
      rw [hr] at hw
      exact hw.mono (List.subset_append_left _ _)
  | ok a u =>
      rw [hr] at hw
      exact hw.trans (hn a u)

theorem Keeps.inScope {x : Eval α} (hx : Keeps declared x) : Keeps [] (inScope x) := by
  intro w
  rw [worldAfter_inScope]
  exact (hx w.push).pop

end Eval

open Eval

theorem Expr.keeps_evalAll {es : List Expr} (h : ∀ e ∈ es, Keeps [] e.eval) :
    Keeps [] (evalAll es) := by
  induction es with
  | nil => exact keeps_pure _
  | cons e es ih =>
      obtain ⟨he, hes⟩ := List.forall_mem_cons.1 h
      rw [evalAll]
      exact he.bind fun v => (ih hes).bind fun vs => keeps_pure _

theorem Expr.keeps_eval (e : Expr) : Keeps [] e.eval := by
  induction e with
  | number _ _ =>
      rw [eval]
      exact keeps_pure _
  | name line x =>
      rw [eval]
      exact keeps_lookup x line
  | negate line e ih =>
      rw [eval]
      exact ih.bind fun v => keeps_lift _
  | not line e ih =>
      rw [eval]
      exact ih.bind fun v => keeps_pure _
  | group e ih =>
      rw [eval]
      exact ih
  | call line f es ih =>
      rw [eval]
      exact (keeps_evalAll ih).bind fun vs => keeps_call f vs line
  | binary line op l r ihl ihr =>
      rw [eval]
      exact ihl.bind fun _ => ihr.bind fun _ => keeps_lift _
  | assign line x e ih =>
      rw [eval]
      exact ih.bind fun v => (keeps_assign x v line).bind fun _ => keeps_pure _

theorem Statement.keeps_evalFrom {body : List Statement}
    (h : ∀ s ∈ body, Keeps s.declared s.eval) (last : Option Value) :
    Keeps (declaredAll body) (evalFrom last body) := by
  induction body generalizing last with
  | nil => exact keeps_pure last
  | cons s body ih =>
      obtain ⟨hs, hbody⟩ := List.forall_mem_cons.1 h
      rw [evalFrom]
      exact hs.bind fun v => ih hbody v

theorem Statement.keeps_eval (s : Statement) : Keeps s.declared s.eval := by
  induction s with
  | declare line x e =>
      rw [eval]
      exact e.keeps_eval.bind fun v => (keeps_declare x v line).bind fun _ => keeps_pure _
  | expression e =>
      rw [eval]
      exact e.keeps_eval.bind fun v => keeps_pure _
  | block line body ih =>
      rw [eval]
      exact (keeps_evalFrom ih none).inScope

/-- A declaration that succeeds has declared its variable. -/
theorem Statement.owns_of_eval {s : Statement} {x : String} {w u : World} {v : Option Value}
    (h : s.eval w = .ok v u) (hx : x ∈ s.declared) : u.context.owns 0 x := by
  cases s with
  | expression e | block line body => cases hx
  | declare line z e =>
      obtain rfl := List.mem_singleton.1 hx
      rw [eval, bind_eq_ok_iff] at h
      obtain ⟨a, u', -, h⟩ := h
      obtain ⟨_, u'', hd, hu⟩ := bind_eq_ok_iff.1 h
      cases hu
      simp only [Eval.declare, Context.declare] at hd
      cases hc : u'.context.top.contains x with
      | true => simp [hc] at hd
      | false =>
          simp only [hc] at hd
          cases hd
          change (u'.context.top.insert x a).contains x
          simp [Bindings.contains]

namespace Eval

/-! Steps in related worlds. What a relation has to say of the worlds after a step is left to it. -/

section Steps

variable {R : World → World → Prop} {w w' : World} {x : String}

theorem Agree.lookup (h : R w w') (hget : w'.context.get? x = w.context.get? x) (line : Nat) :
    Agree R id (lookup x line w) (lookup x line w') := by
  simp only [Eval.lookup, hget]
  cases w.context.get? x with
  | some v => exact .ok h
  | none => exact .error h

/-- An assignment that finds its variable in both worlds or in none. -/
theorem Agree.assign {S : List Scope → List Scope → Prop} {v : Value} (h : R w w')
    (hscopes : Option.Rel S (Context.assignIn x v w.context.scopes)
      (Context.assignIn x v w'.context.scopes))
    (hR : ∀ {c c' : Context}, c.functions = w.context.functions →
      c'.functions = w'.context.functions → S c.scopes c'.scopes →
      R { w with context := c } { w' with context := c' }) (line : Nat) :
    Agree R id (assign x v line w) (assign x v line w') := by
  generalize hfound : Context.assignIn x v w.context.scopes = found at hscopes
  generalize hfound' : Context.assignIn x v w'.context.scopes = found' at hscopes
  cases hscopes with
  | none =>
      have hc : w.context.assign x v line = _ := Context.assign_eq_error_iff.2 ⟨hfound, rfl⟩
      have hc' : w'.context.assign x v line = _ := Context.assign_eq_error_iff.2 ⟨hfound', rfl⟩
      simp only [Eval.assign, hc, hc']
      exact .error h
  | some hafter =>
      obtain ⟨c, hc, hfunctions, rfl⟩ := Context.exists_assign_eq_ok hfound line
      obtain ⟨c', hc', hfunctions', rfl⟩ := Context.exists_assign_eq_ok hfound' line
      simp only [Eval.assign, hc, hc']
      exact .ok (hR hfunctions hfunctions' hafter)

theorem Agree.declare {v : Value} {line : Nat} (h : R w w')
    (hcontains : w'.context.top.contains x = w.context.top.contains x)
    (hR : ∀ {events events' : List Event},
      R ⟨{ w.context with top := w.context.top.insert x v }, w.output, events⟩
        ⟨{ w'.context with top := w'.context.top.insert x v }, w'.output, events'⟩) :
    Agree R id (declare x v line w) (declare x v line w') := by
  simp only [Eval.declare, Context.declare, hcontains]
  cases w.context.top.contains x with
  | true => exact .error h
  | false => exact .ok hR

theorem Agree.call (h : R w w') (hfunction : w'.context.function? x = w.context.function? x)
    (hR : ∀ {printed : String} {events events' : List Event},
      R ⟨w.context, w.output ++ printed, events⟩ ⟨w'.context, w'.output ++ printed, events'⟩)
    (vs : List Value) (line : Nat) : Agree R id (call x vs line w) (call x vs line w') := by
  simp only [Eval.call, hfunction]
  cases w.context.function? x with
  | none => exact .error h
  | some f => exact simulates_lift_self _ hR

end Steps

end Eval

/-- However an evaluation ends, no scope is left open or closed too many, no variable is lost and no
function changes. Only the statements of a program, or a single statement, leave new variables, in the
innermost scope and under the names they declare there. -/
theorem Eval.keeps_scopes (w : World) :
    (∀ b : Block, w.context.Keeps b.declared (b.evalProgram.worldAfter w).context) ∧
    (∀ s : Statement, w.context.Keeps s.declared (s.eval.worldAfter w).context) ∧
    (∀ b : Block, w.context.Keeps [] (b.evalScoped.worldAfter w).context) ∧
    (∀ e : Expr, w.context.Keeps [] (e.eval.worldAfter w).context) ∧
    (∀ es : List Expr, w.context.Keeps [] ((Expr.evalAll es).worldAfter w).context) := by
  have hprogram : ∀ b : Block, Keeps b.declared b.evalProgram :=
    fun b => Statement.keeps_evalFrom (fun s _ => s.keeps_eval) none
  exact ⟨fun b => hprogram b w, fun s => s.keeps_eval w, fun b => (hprogram b).inScope w,
    fun e => e.keeps_eval w, fun es => Expr.keeps_evalAll (fun e _ => e.keeps_eval) w⟩

end Abacus
