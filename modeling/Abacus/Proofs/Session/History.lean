import Abacus.Proofs.Context.History
import Abacus.Proofs.Session.Joining

/-!
Sessions over time. Whatever is run, registered and called in a session, and whatever fails on the way,
one scope is open between two steps, no variable is lost, a text that asks for nothing changes nothing,
and a name calls the function that was registered for it last. Each of these is a law of a single step
first.
-/
namespace Abacus.Session

/-- What can be done with a session from outside. -/
inductive Step where
  | run (source : String)
  | register (name : String) (body : List Value → Nat → Reply)
  | call (name : String) (arguments : List Value) (line : Nat)

/-- The session after a step, whether the step succeeds or fails. -/
def perform (s : Session) : Step → Session
  | .run source => after (s.run source)
  | .register name body => s.register name body
  | .call name arguments line => after (s.call name arguments line)

/-- The session after some steps. -/
def history (s : Session) (steps : List Step) : Session :=
  steps.foldl perform s

/-- A session in which nothing has been done, with the built-in functions or without. -/
def start (builtins : Bool) : Session :=
  if builtins then new else bare

/-- The function that a name stands for in a session in which nothing has been done. -/
def initial? (builtins : Bool) (name : String) : Option HostFunction :=
  if builtins then Builtin.table.lookup name else none

/-- The function that a step registers under a name. -/
def Step.registered? (name : String) : Step → Option HostFunction
  | .register other body => if name = other then some (.variadic body) else none
  | .run _ | .call _ _ _ => none

/-- The function that steps have registered under a name, by the last one that does. -/
def lastRegistered? (name : String) (steps : List Step) : Option HostFunction :=
  steps.reverse.findSome? (·.registered? name)

/-- A text that asks for nothing: it is not made of tokens, or they are no program, or there is no
statement in it. -/
inductive Idle (source : String) : Prop where
  | lex {e : LexError} : Token.tokenize source = .error e → Idle source
  | parse {ts : List Token} {e : ParseError} :
      Token.tokenize source = .ok ts → parse ts = .error e → Idle source
  | empty {ts : List Token} {p : Block} :
      Token.tokenize source = .ok ts → parse ts = .ok p → p.statements = [] → Idle source

section Runs

variable {s : Session} {source : String}

theorem run_of_idle (h : Idle source) :
    (s.run source).world.context = s.context ∧ (s.run source).world.output = "" := by
  cases h with
  | lex hts => simp [run, Block.reading, hts]
  | parse hts hp => simp [run, Block.reading, hts, hp]
  | empty hts hp hempty =>
      obtain ⟨w, hcontext, houtput, hrun⟩ := s.exists_run_eq (Block.ofSource_eq_ok hts hp)
      rw [hrun, hempty]
      exact ⟨hcontext, houtput⟩

theorem declared_not_mem_reading (source x : String) (v : Value) (depth : Nat) :
    .declared x v depth ∉ (Block.reading source).2 := by
  unfold Block.reading
  split
  · simp
  · dsimp only
    split <;> simp

theorem world_ofResult {α : Type} (m : Eval α) (w : World) :
    (Run.ofResult (m w)).world = m.worldAfter w := by
  rw [Eval.worldAfter]
  cases m w <;> rfl

/-- A run leaves the world that its program leaves. Where there is no program to evaluate, the empty one
will do. -/
theorem exists_world_eq (s : Session) (source : String) :
    ∃ (p : Block) (w : World), w.context = s.context ∧ (∀ x v depth, .declared x v depth ∉ w.trace) ∧
      (s.run source).world = p.evalProgram.worldAfter w := by
  have hevents := declared_not_mem_reading source
  rw [run_eq]
  cases Block.ofSource source with
  | error e => exact ⟨⟨1, []⟩, ⟨s.context, "", (Block.reading source).2⟩, rfl, hevents, rfl⟩
  | ok p => exact ⟨p, ⟨s.context, "", (Block.reading source).2⟩, rfl, hevents, world_ofResult _ _⟩

theorem keeps_run (s : Session) (source : String) :
    ∃ declared, s.context.Keeps declared (s.run source).world.context := by
  obtain ⟨p, w, hcontext, _, hworld⟩ := exists_world_eq s source
  rw [hworld, ← hcontext]
  exact ⟨p.declared, Statement.keeps_evalFrom (fun t _ => t.keeps_eval) none w⟩

/-- The outermost scope has the names that it had, and those whose declarations there are among the
events of the run. -/
theorem ownsGlobal_run (s : Session) (source x : String) :
    (s.run source).world.context.ownsGlobal x ↔
      s.context.ownsGlobal x ∨ ∃ v, .declared x v 1 ∈ (s.run source).events := by
  obtain ⟨p, w, hcontext, htrace, hworld⟩ := exists_world_eq s source
  obtain ⟨events, hevents, hx⟩ := World.Declares.stepwise.program p w
  rw [Run.events, hworld, hevents, hx, hcontext]
  simp [htrace]

theorem call_context (s : Session) (name : String) (arguments : List Value) (line : Nat) :
    (s.call name arguments line).world.context = s.context := by
  refine Eq.trans ?_ (Eval.context_call name arguments line (.start s.context))
  simp only [call, Run.ofEval, Eval.worldAfter]
  cases Eval.call name arguments line (.start s.context) <;> rfl

end Runs

section Steps

variable (s : Session) (step : Step)

theorem depth_perform : (s.perform step).context.depth = s.context.depth := by
  cases step with
  | run source =>
      obtain ⟨_, hkeeps⟩ := keeps_run s source
      exact hkeeps.depth_eq
  | register name body => rfl
  | call name arguments line => exact congrArg Context.depth (call_context s name arguments line)

theorem owns_perform {index : Nat} {x : String} (h : s.context.owns index x) :
    (s.perform step).context.owns index x := by
  cases step with
  | run source =>
      obtain ⟨_, hkeeps⟩ := keeps_run s source
      exact hkeeps.owns_of_owns index x h
  | register name body => exact h
  | call name arguments line =>
      rw [perform, after, call_context]
      exact h

theorem function?_perform (name : String) :
    (s.perform step).context.function? name =
      (step.registered? name).or (s.context.function? name) := by
  cases step with
  | run source =>
      obtain ⟨_, hkeeps⟩ := keeps_run s source
      exact congrArg (·.get? name) hkeeps.functions_eq
  | register other body => exact Context.function?_define s.context name other (.variadic body)
  | call other arguments line =>
      rw [perform, after, call_context]
      rfl

end Steps

section Histories

variable (s : Session) (steps : List Step)

theorem depth_history : (s.history steps).context.depth = s.context.depth := by
  induction steps generalizing s with
  | nil => rfl
  | cons step steps ih => exact (ih (s.perform step)).trans (depth_perform s step)

theorem owns_history {index : Nat} {x : String} (h : s.context.owns index x) :
    (s.history steps).context.owns index x := by
  induction steps generalizing s with
  | nil => exact h
  | cons step steps ih => exact ih (s.perform step) (owns_perform s step h)

theorem function?_history (name : String) :
    (s.history steps).context.function? name =
      (lastRegistered? name steps).or (s.context.function? name) :=
  view_foldl (·.context.function? name) _ (fun s step => function?_perform s step name) s steps

end Histories

theorem function?_start (builtins : Bool) (name : String) :
    (start builtins).context.function? name = initial? builtins name := by
  cases builtins with
  | false => rfl
  | true => exact (Context.function?_install .empty name).trans Option.or_none

/-- While one scope is open, its variables are all there are. -/
theorem isSome_get?_of_depth {c : Context} (h : c.depth = 1) (x : String) :
    (c.get? x).isSome = c.owns 0 x ∧ (c.get? x).isSome = c.ownsGlobal x := by
  obtain ⟨functions, top, outer⟩ := c
  obtain rfl : outer = [] := List.eq_nil_of_length_eq_zero (Nat.succ.inj h)
  simp [Context.get?, Context.ownsGlobal, Context.owns, Context.scopes, Bindings.contains]

/-- What holds of a session at any time, whatever has been run, registered and called in it: one scope
is open; a run binds the variables that it declares at the top level, also if it fails later on, and no
others; variables that are bound stay bound; a text that asks for nothing leaves the session as it is
and prints nothing; runs do not change functions; and a name calls the function that was registered for
it last, or else the one that it stood for in the beginning. -/
theorem history_invariant (builtins : Bool) (steps : List Step) :
    let s := (start builtins).history steps
    s.context.depth = 1 ∧
    (∀ source x, ((s.run source).world.context.get? x).isSome ↔
      (s.context.get? x).isSome ∨ ∃ v, .declared x v 1 ∈ (s.run source).events) ∧
    (∀ later x, (s.context.get? x).isSome → ((s.history later).context.get? x).isSome) ∧
    (∀ source, Idle source →
      (s.run source).world.context = s.context ∧ (s.run source).world.output = "") ∧
    (∀ source name, (s.run source).world.context.function? name = s.context.function? name) ∧
    ∀ name, s.context.function? name = (lastRegistered? name steps).or (initial? builtins name) := by
  intro s
  have hstart : (start builtins).context.depth = 1 := by cases builtins <;> rfl
  have hdepth : s.context.depth = 1 := (depth_history _ steps).trans hstart
  refine ⟨hdepth, fun source x => ?_, fun later x hx => ?_, fun source => run_of_idle,
    fun source name => function?_perform s (.run source) name, fun name => ?_⟩
  · have hrun : (s.run source).world.context.depth = 1 := (depth_perform s (.run source)).trans hdepth
    rw [(isSome_get?_of_depth hrun x).2, (isSome_get?_of_depth hdepth x).2]
    exact ownsGlobal_run s source x
  · have hlater : (s.history later).context.depth = 1 := (depth_history s later).trans hdepth
    rw [(isSome_get?_of_depth hlater x).1]
    rw [(isSome_get?_of_depth hdepth x).1] at hx
    exact owns_history s later hx
  · rw [← function?_start]
    exact function?_history (start builtins) steps name

end Abacus.Session
