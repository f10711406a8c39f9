import Abacus.Proofs.Context.Frames
import Abacus.Proofs.Eval.Footprint
import Mathlib.Data.List.Forall2

/-!
Contexts over time. A context can be used in any order: scopes are opened and closed, functions are
defined, variables are declared and assigned, programs and blocks are evaluated. What its names stand for
follows the same laws at any time: an assignment changes the variable that is read and no other, a
declaration is gone with its scope, and a function is the one that was defined last.
-/
namespace Abacus

section Views

variable {σ τ α : Type} {step : σ → τ → σ} (view : σ → Option α) (sets : τ → Option α)

/-- What each step either sets or leaves as it is, is after some steps what the last one of them that
sets it has set. -/
theorem view_foldl (hstep : ∀ s t, view (step s t) = (sets t).or (view s)) (s : σ) (steps : List τ) :
    view (steps.foldl step s) = (steps.reverse.findSome? sets).or (view s) := by
  induction steps generalizing s with
  | nil => rfl
  | cons t steps ih =>
      -- Later steps are asked first, so the first step comes before what was there already.
      have hlast : (t :: steps).reverse.findSome? sets =
          (steps.reverse.findSome? sets).or (sets t) := by
        rw [List.reverse_cons, List.findSome?_append, List.findSome?_singleton]
      rw [List.foldl_cons, ih, hstep, hlast, Option.or_assoc]

end Views

namespace Context

/-- What can be done with a context. -/
inductive Step where
  | push
  | pop
  | install
  | register (name : String) (body : List Value → Nat → Reply)
  | define (name : String) (f : HostFunction)
  | declare (x : String) (v : Value) (line : Nat)
  | assign (x : String) (v : Value) (line : Nat)
  | program (b : Block)
  | block (b : Block)

/-- The context that a computation leaves, whether it succeeds or fails. -/
def after {α : Type} (c : Context) (m : Eval α) : Context :=
  (m.worldAfter (.start c)).context

def perform (c : Context) : Step → Context
  | .push => c.push
  | .pop => c.pop
  | .install => c.install
  | .register name body => c.register name body
  | .define name f => c.define name f
  | .declare x v line => c.after (Eval.declare x v line)
  | .assign x v line => c.after (Eval.assign x v line)
  | .program b => c.after b.evalProgram
  | .block b => c.after b.evalScoped

/-- The context after some steps. -/
def history (c : Context) (steps : List Step) : Context :=
  steps.foldl perform c

/-- What a step does to frames, one thing after the other. An evaluation does what can be done to
scopes, and that of a block does it in a scope of its own. -/
inductive Step.Does : Step → List Frames.Op → Prop where
  | push : Does .push [.push]
  | pop : Does .pop [.pop]
  | install : Does .install (Builtin.table.map fun entry => .define entry.1 entry.2)
  | register (name : String) (body : List Value → Nat → Reply) :
      Does (.register name body) [.define name (.variadic body)]
  | define (name : String) (f : HostFunction) : Does (.define name f) [.define name f]
  | declare (x : String) (v : Value) (line : Nat) : Does (.declare x v line) [.declare x v line]
  | assign (x : String) (v : Value) (line : Nat) : Does (.assign x v line) [.assign x v line]
  | program (b : Block) {ops : List Frames.Op} :
      (∀ op ∈ ops, op.OnScopes) → Does (.program b) ops
  | block (b : Block) {ops : List Frames.Op} :
      (∀ op ∈ ops, op.OnScopes) → Does (.block b) (.push :: (ops ++ [.pop]))

/-- The function that a step defines under a name. -/
def Step.defined? (name : String) : Step → Option HostFunction
  | .install => Builtin.table.lookup name
  | .register other body => if name = other then some (.variadic body) else none
  | .define other f => if name = other then some f else none
  | .push | .pop | .declare _ _ _ | .assign _ _ _ | .program _ | .block _ => none

/-- The function that steps have defined under a name, by the last one that does. -/
def lastDefined? (name : String) (steps : List Step) : Option HostFunction :=
  steps.reverse.findSome? (·.defined? name)

section Functions

variable (c : Context) (name : String)

theorem function?_define (other : String) (f : HostFunction) :
    (c.define other f).function? name =
      (if name = other then some f else none).or (c.function? name) := by
  refine (Bindings.get?_insert c.functions other name f).trans ?_
  split <;> rfl

/-- The built-in functions have different names, so the first of a name is the last. -/
theorem findSome?_table : Builtin.table.reverse.findSome?
    (fun entry => if name = entry.1 then some entry.2 else none) = Builtin.table.lookup name := by
  have hlast : ∀ entries : List (String × HostFunction), (entries.map (·.1)).Nodup →
      entries.reverse.findSome? (fun entry => if name = entry.1 then some entry.2 else none) =
        entries.lookup name := by
    intro entries hnodup
    induction entries with
    | nil => rfl
    | cons entry entries ih =>
        obtain ⟨other, f⟩ := entry
        obtain ⟨hother, hentries⟩ := List.nodup_cons.1 hnodup
        rw [List.reverse_cons, List.findSome?_append, List.findSome?_singleton, ih hentries,
          List.lookup_cons]
        by_cases h : name = other
        · subst h
          have hnone : entries.lookup name = none := by
            refine List.lookup_eq_none_iff.2 fun entry hentry => ?_
            have hne : name ≠ entry.1 := by
              rintro rfl
              exact hother (List.mem_map.2 ⟨entry, hentry, rfl⟩)
            simpa using hne
          simp [hnone]
        · simp [h, beq_eq_false_iff_ne.2 h]
  exact hlast Builtin.table (by decide)

theorem function?_install :
    c.install.function? name = (Builtin.table.lookup name).or (c.function? name) := by
  rw [← findSome?_table]
  exact view_foldl (·.function? name) _ (fun c entry => function?_define c name entry.1 entry.2) c
    Builtin.table

theorem scopes_install : c.install.scopes = c.scopes :=
  List.foldlRecOn (motive := fun c' : Context => c'.scopes = c.scopes) Builtin.table _ rfl
    fun _ h _ _ => h

theorem frames_install :
    c.install.frames = c.frames.history (Builtin.table.map fun entry => .define entry.1 entry.2) := by
  rw [install, Frames.history, List.foldl_map]
  exact (List.foldl_hom frames fun c entry => (frames_define c entry.1 entry.2).symm).symm

end Functions

section Steps

variable (c : Context) (step : Step)

theorem function?_after {α : Type} {declared : List String} {m : Eval α}
    (h : Eval.Keeps declared m) (name : String) : (c.after m).function? name = c.function? name :=
  congrArg (·.get? name) (h (.start c)).functions_eq

theorem function?_perform (name : String) :
    (c.perform step).function? name = (step.defined? name).or (c.function? name) := by
  have hprogram : ∀ b : Block, Eval.Keeps b.declared b.evalProgram :=
    fun b => Statement.keeps_evalFrom (fun s _ => s.keeps_eval) none
  cases step with
  | push => rfl
  | pop =>
      obtain ⟨functions, top, outer⟩ := c
      cases outer <;> rfl
  | install => exact function?_install c name
  | register other body => exact function?_define c name other (.variadic body)
  | define other f => exact function?_define c name other f
  | declare x v line => exact function?_after c (Eval.keeps_declare x v line) name
  | assign x v line => exact function?_after c (Eval.keeps_assign x v line) name
  | program b => exact function?_after c (hprogram b) name
  | block b => exact function?_after c (hprogram b).inScope name

/-- A step does the same to a context and to its frames. -/
theorem exists_ops_perform :
    ∃ ops, step.Does ops ∧ (c.perform step).frames = c.frames.history ops := by
  cases step with
  | push => exact ⟨_, .push, c.frames_push⟩
  | pop => exact ⟨_, .pop, c.frames_pop⟩
  | install => exact ⟨_, .install, c.frames_install⟩
  | register name body => exact ⟨_, .register name body, c.frames_define name (.variadic body)⟩
  | define name f => exact ⟨_, .define name f, c.frames_define name f⟩
  | declare x v line => exact ⟨_, .declare x v line, Frames.frames_worldAfter_declare ..⟩
  | assign x v line => exact ⟨_, .assign x v line, Frames.frames_worldAfter_assign ..⟩
  | program b =>
      obtain ⟨ops, hops, hframes⟩ := Frames.stepwise.program b (.start c)
      exact ⟨ops, .program b hops, hframes⟩
  | block b =>
      obtain ⟨ops, hops, hframes⟩ := Frames.stepwise.program b (World.start c).push
      refine ⟨_, .block b hops, ?_⟩
      calc (c.perform (.block b)).frames
        _ = (b.evalProgram.worldAfter (World.start c).push).context.pop.frames := by
          rw [perform, after, Block.evalScoped, Eval.worldAfter_inScope]
          rfl
        _ = (c.push.frames.history ops).pop := by
          rw [frames_pop, hframes]
          rfl
        _ = c.frames.history (.push :: (ops ++ [.pop])) := by
          rw [← List.singleton_append, Frames.history_append, Frames.history_append]
          rfl

end Steps

section Histories

variable (c : Context) (steps : List Step)

/-- Steps do the same to a context and to its frames. -/
theorem exists_ops_history : ∃ parts, List.Forall₂ Step.Does steps parts ∧
    (c.history steps).frames = c.frames.history parts.flatten := by
  induction steps generalizing c with
  | nil => exact ⟨[], .nil, rfl⟩
  | cons step steps ih =>
      obtain ⟨ops, hops, hframes⟩ := exists_ops_perform c step
      obtain ⟨parts, hparts, hhistory⟩ := ih (c.perform step)
      refine ⟨ops :: parts, .cons hops hparts, ?_⟩
      rw [List.flatten_cons, Frames.history_append, ← hframes]
      exact hhistory

theorem function?_history (name : String) :
    (c.history steps).function? name = (lastDefined? name steps).or (c.function? name) :=
  view_foldl (·.function? name) _ (fun c step => function?_perform c step name) c steps

end Histories

section Variables

variable {c c' : Context} {x : String} {v : Value} {line : Nat}

theorem findSome?_of_innermost {scopes : List Scope} {index : Nat}
    (howns : scopes[index]?.any (·.contains x))
    (hinner : ∀ i < index, scopes[i]?.any (·.contains x) = false) :
    scopes.findSome? (·.get? x) = scopes[index]?.bind (·.get? x) := by
  induction scopes generalizing index with
  | nil => cases howns
  | cons scope outer ih =>
      rw [List.findSome?_cons]
      cases index with
      | zero =>
          obtain ⟨v, hv⟩ := Option.isSome_iff_exists.1 howns
          simp [hv]
      | succ index =>
          have hnone : scope.get? x = none := by
            simpa [Bindings.contains] using hinner 0 (Nat.succ_pos index)
          rw [hnone]
          exact ih howns fun i hi => hinner (i + 1) (Nat.succ_lt_succ hi)

/-- A name stands for the variable of the innermost scope that has it. -/
theorem Finds.get?_eq {index : Nat} (h : c.Finds index x) : c.get? x = c.valueAt index x :=
  findSome?_of_innermost h.1 h.2

theorem get?_of_assign (h : c.assign x v line = .ok c') : c'.get? x = some v :=
  (findSome?_assignIn (assign_eq_ok_iff.1 h).2 x).trans (if_pos rfl)

theorem exists_assign_iff : (∃ c', c.assign x v line = .ok c') ↔ (c.get? x).isSome := by
  rw [get?, ← isSome_assignIn x v, Option.isSome_iff_exists]
  constructor
  · rintro ⟨c', h⟩
    exact ⟨c'.scopes, (assign_eq_ok_iff.1 h).2⟩
  · rintro ⟨after, h⟩
    obtain ⟨c', hc', -⟩ := exists_assign_eq_ok h line
    exact ⟨c', hc'⟩

theorem exists_declare_iff : (∃ c', c.declare x v line = .ok c') ↔ c.owns 0 x = false := by
  change _ ↔ c.top.contains x = false
  rw [declare]
  cases c.top.contains x <;> simp

theorem pop_declare_push (c : Context) (x : String) (v : Value) (line : Nat) :
    ∃ c', c.push.declare x v line = .ok c' ∧ c'.pop = c :=
  ⟨_, rfl, rfl⟩

theorem perform_declare_of_error {e : RuntimeError} (h : c.declare x v line = .error e) :
    c.perform (.declare x v line) = c := by
  simp only [perform, after, Eval.worldAfter, Eval.declare, World.start, h]

theorem perform_assign_of_error {e : RuntimeError} (h : c.assign x v line = .error e) :
    c.perform (.assign x v line) = c := by
  simp only [perform, after, Eval.worldAfter, Eval.assign, World.start, h]

end Variables

/-- What holds of a context at any time, whatever has been done with it: it consists of the frames that
the same steps make of a single empty one; there is a frame, and only the outermost one holds functions;
an assignment succeeds if the name stands for a value, and then gives that variable another value and
changes no other, shadowed ones included; a declaration succeeds if the innermost scope does not have the
name, and is gone when its scope is closed; if either fails, nothing is changed; a name calls the
function that was defined for it last, whatever scopes and variables there are; and defining functions
changes no variable. -/
theorem history_laws (steps : List Step) :
    let c := empty.history steps
    (∃ parts, List.Forall₂ Step.Does steps parts ∧ c.frames = Frames.new.history parts.flatten) ∧
    (c.frames ≠ [] ∧ (∀ frame ∈ c.frames.dropLast, frame.functions = .empty) ∧
      c.frames.map (·.scope) = c.scopes ∧ (∀ x, c.frames.get? x = c.get? x) ∧
      ∀ name, c.frames.function? name = c.function? name) ∧
    (∀ x v line,
      ((∃ c', c.assign x v line = .ok c') ↔ (c.get? x).isSome) ∧
      (∀ c', c.assign x v line = .ok c' → c'.get? x = some v ∧
        ∃ index, c.Finds index x ∧ c.get? x = c.valueAt index x ∧ Binds index x v c c') ∧
      ∀ e, c.assign x v line = .error e → c.perform (.assign x v line) = c) ∧
    (∀ x v line,
      ((∃ c', c.declare x v line = .ok c') ↔ c.owns 0 x = false) ∧
      (∀ c', c.declare x v line = .ok c' → Binds 0 x v c c') ∧
      (∃ c', c.push.declare x v line = .ok c' ∧ c'.pop = c) ∧
      ∀ e, c.declare x v line = .error e → c.perform (.declare x v line) = c) ∧
    (∀ name, c.function? name = lastDefined? name steps) ∧
    (c.install.scopes = c.scopes ∧
      (∀ name body, (c.register name body).scopes = c.scopes) ∧
      ∀ name f, (c.define name f).scopes = c.scopes) := by
  intro c
  obtain ⟨parts, hparts, hframes⟩ := exists_ops_history empty steps
  have hrooted : c.frames.Rooted := hframes ▸ Frames.rooted_history parts.flatten
  refine ⟨⟨parts, hparts, hframes⟩,
    ⟨hrooted.ne_nil, hrooted.inner_functions, c.scopes_frames, c.get?_frames, c.function?_frames⟩,
    fun x v line => ⟨exists_assign_iff, fun c' h => ?_, fun e => perform_assign_of_error⟩,
    fun x v line => ⟨exists_declare_iff, fun c' => .declare, pop_declare_push c x v line,
      fun e => perform_declare_of_error⟩,
    fun name => ?_, scopes_install c, fun _ _ => rfl, fun _ _ => rfl⟩
  · obtain ⟨index, hfinds, hbinds⟩ := Binds.assign h
    exact ⟨get?_of_assign h, index, hfinds, hfinds.get?_eq, hbinds⟩
  · rw [function?_history empty steps name]
    exact Option.or_none

end Context

end Abacus
