import Abacus.Proofs.Eval.Globals

/-!
A context as a stack of frames, each with a scope and a table of functions of its own. Names are
searched from the innermost frame outward in both tables, but functions are only ever defined in the
outermost frame. A context keeps the scopes apart from that one table; what it does to them is what is
done to its frames, and what an evaluation does to them is done one thing after the other.
-/
namespace Abacus

structure Frame where
  scope : Scope
  functions : Bindings HostFunction

namespace Frame

def empty : Frame :=
  ⟨.empty, .empty⟩

def bind (frame : Frame) (x : String) (v : Value) : Frame :=
  { frame with scope := frame.scope.insert x v }

end Frame

/-- Frames from the inside out. -/
abbrev Frames := List Frame

namespace Frames

def push (fs : Frames) : Frames :=
  .empty :: fs

/-- Closes the innermost frame, unless it is the only one. -/
def pop : Frames → Frames
  | _ :: frame :: fs => frame :: fs
  | fs => fs

def get? (fs : Frames) (x : String) : Option Value :=
  fs.findSome? (·.scope.get? x)

def declare (fs : Frames) (x : String) (v : Value) (line : Nat) : Except RuntimeError Frames :=
  match fs with
  | [] => .error (.unknownVariable x line)
  | frame :: fs =>
    if frame.scope.contains x then .error (.alreadyDeclared x line)
    else .ok (frame.bind x v :: fs)

def assignIn (x : String) (v : Value) : Frames → Option Frames
  | [] => none
  | frame :: fs =>
    if frame.scope.contains x then some (frame.bind x v :: fs)
    else (assignIn x v fs).map (frame :: ·)

def assign (fs : Frames) (x : String) (v : Value) (line : Nat) : Except RuntimeError Frames :=
  match assignIn x v fs with
  | none => .error (.unknownVariable x line)
  | some fs => .ok fs

def function? (fs : Frames) (name : String) : Option HostFunction :=
  fs.findSome? (·.functions.get? name)

/-- Defines a function in the outermost frame. -/
def define (name : String) (f : HostFunction) : Frames → Frames
  | [] => []
  | [root] => [{ root with functions := root.functions.insert name f }]
  | frame :: next :: fs => frame :: define name f (next :: fs)

/-- What can be done with frames. -/
inductive Op where
  | push
  | pop
  | declare (x : String) (v : Value) (line : Nat)
  | assign (x : String) (v : Value) (line : Nat)
  | define (name : String) (f : HostFunction)

/-- Whether something is done with the scopes of frames and not with their functions. -/
def Op.OnScopes : Op → Prop
  | .define _ _ => False
  | .push | .pop | .declare _ _ _ | .assign _ _ _ => True

/-- The frames after something is done with them. What fails leaves them as they are. -/
def perform (fs : Frames) : Op → Frames
  | .push => fs.push
  | .pop => fs.pop
  | .declare x v line =>
    match fs.declare x v line with
    | .ok fs' => fs'
    | .error _ => fs
  | .assign x v line =>
    match fs.assign x v line with
    | .ok fs' => fs'
    | .error _ => fs
  | .define name f => fs.define name f

/-- The frames after some things are done, from the first to the last. -/
def history (fs : Frames) (ops : List Op) : Frames :=
  ops.foldl perform fs

/-- A single frame, and nothing bound. -/
def new : Frames :=
  [.empty]

theorem history_append (fs : Frames) (ops ops' : List Op) :
    fs.history (ops ++ ops') = (fs.history ops).history ops' :=
  List.foldl_append

/-- There is a frame, and only the outermost one holds functions. -/
def Rooted (fs : Frames) : Prop :=
  ∃ inner root, fs.map (·.functions) = List.replicate inner .empty ++ [root]

section Rooted

variable {fs fs' : Frames} {x : String} {v : Value} {line : Nat}

theorem functions_declare (h : fs.declare x v line = .ok fs') :
    fs'.map (·.functions) = fs.map (·.functions) := by
  cases fs with
  | nil => cases h
  | cons frame fs =>
      rw [declare] at h
      split at h
      · cases h
      · cases h
        rfl

theorem functions_assignIn (h : assignIn x v fs = some fs') :
    fs'.map (·.functions) = fs.map (·.functions) := by
  induction fs generalizing fs' with
  | nil => cases h
  | cons frame fs ih =>
      rw [assignIn] at h
      split at h
      · cases h
        rfl
      · obtain ⟨rest, hrest, rfl⟩ := Option.map_eq_some_iff.1 h
        exact congrArg (frame.functions :: ·) (ih hrest)

theorem functions_assign (h : fs.assign x v line = .ok fs') :
    fs'.map (·.functions) = fs.map (·.functions) := by
  rw [assign] at h
  split at h
  · cases h
  · next hfound =>
    cases h
    exact functions_assignIn hfound

theorem Rooted.of_functions_eq (h : Rooted fs)
    (heq : fs'.map (·.functions) = fs.map (·.functions)) : Rooted fs' := by
  obtain ⟨inner, root, hfunctions⟩ := h
  exact ⟨inner, root, heq.trans hfunctions⟩

theorem Rooted.push (h : Rooted fs) : Rooted fs.push := by
  obtain ⟨inner, root, hfunctions⟩ := h
  exact ⟨inner + 1, root, congrArg (Bindings.empty :: ·) hfunctions⟩

theorem Rooted.pop (h : Rooted fs) : Rooted fs.pop := by
  match fs with
  | [] | [_] => exact h
  | _ :: frame :: fs =>
      obtain ⟨inner, root, hfunctions⟩ := h
      cases inner with
      | zero => cases hfunctions
      | succ inner => exact ⟨inner, root, (List.cons.inj hfunctions).2⟩

theorem Rooted.define (name : String) (f : HostFunction) (h : Rooted fs) :
    Rooted (fs.define name f) := by
  obtain ⟨inner, root, hfunctions⟩ := h
  refine ⟨inner, root.insert name f, ?_⟩
  induction fs generalizing inner with
  | nil => simp at hfunctions
  | cons frame fs ih =>
      cases inner with
      | zero =>
          obtain ⟨hroot, hfs⟩ := List.cons.inj hfunctions
          obtain rfl := List.map_eq_nil_iff.1 hfs
          simp [Frames.define, hroot]
      | succ inner =>
          obtain ⟨hempty, hfs⟩ := List.cons.inj hfunctions
          change frame.functions = .empty at hempty
          cases fs with
          | nil => simp at hfs
          | cons next fs =>
              rw [Frames.define, List.map_cons, ih inner hfs, hempty]
              rfl

theorem Rooted.perform (h : Rooted fs) (op : Op) : Rooted (fs.perform op) := by
  cases op with
  | push => exact h.push
  | pop => exact h.pop
  | declare x v line =>
      rw [Frames.perform]
      split
      · next hd => exact h.of_functions_eq (functions_declare hd)
      · exact h
  | assign x v line =>
      rw [Frames.perform]
      split
      · next ha => exact h.of_functions_eq (functions_assign ha)
      · exact h
  | define name f => exact h.define name f

theorem rooted_history (ops : List Op) : Rooted (new.history ops) :=
  List.foldlRecOn (motive := Rooted) ops perform ⟨0, .empty, rfl⟩ fun _ h op _ => h.perform op

theorem Rooted.ne_nil (h : Rooted fs) : fs ≠ [] := by
  obtain ⟨inner, root, hfunctions⟩ := h
  rintro rfl
  simp at hfunctions

theorem Rooted.inner_functions (h : Rooted fs) :
    ∀ frame ∈ fs.dropLast, frame.functions = .empty := by
  obtain ⟨inner, root, hfunctions⟩ := h
  intro frame hframe
  have hmem : frame.functions ∈ (fs.map (·.functions)).dropLast := by
    rw [← List.map_dropLast]
    exact List.mem_map.2 ⟨frame, hframe, rfl⟩
  rw [hfunctions, List.dropLast_concat] at hmem
  exact List.eq_of_mem_replicate hmem

end Rooted

/-- The frames with the given scopes, of which the outermost has the given functions. -/
def ofScopes (functions : Bindings HostFunction) : List Scope → Frames
  | [] => []
  | [root] => [⟨root, functions⟩]
  | scope :: next :: outer => ⟨scope, .empty⟩ :: ofScopes functions (next :: outer)

section OfScopes

variable {functions : Bindings HostFunction} {scopes : List Scope}

theorem ofScopes_cons (h : scopes ≠ []) (scope : Scope) :
    ofScopes functions (scope :: scopes) = ⟨scope, .empty⟩ :: ofScopes functions scopes := by
  cases scopes with
  | nil => exact absurd rfl h
  | cons => rfl

theorem scopes_ofScopes (functions : Bindings HostFunction) (scopes : List Scope) :
    (ofScopes functions scopes).map (·.scope) = scopes := by
  induction scopes with
  | nil => rfl
  | cons scope scopes ih =>
      cases scopes with
      | nil => rfl
      | cons next outer => exact congrArg (scope :: ·) ih

theorem get?_ofScopes (x : String) :
    (ofScopes functions scopes).get? x = scopes.findSome? (·.get? x) :=
  calc (ofScopes functions scopes).get? x
    _ = ((ofScopes functions scopes).map (·.scope)).findSome? (·.get? x) := by
      rw [List.findSome?_map]
      rfl
    _ = scopes.findSome? (·.get? x) := by rw [scopes_ofScopes]

theorem function?_ofScopes (h : scopes ≠ []) (name : String) :
    (ofScopes functions scopes).function? name = functions.get? name := by
  induction scopes with
  | nil => exact absurd rfl h
  | cons scope scopes ih =>
      cases scopes with
      | nil => exact List.findSome?_singleton
      | cons next outer => exact ih (List.cons_ne_nil next outer)

theorem define_ofScopes (name : String) (f : HostFunction) :
    (ofScopes functions scopes).define name f = ofScopes (functions.insert name f) scopes := by
  induction scopes with
  | nil => rfl
  | cons scope scopes ih =>
      cases scopes with
      | nil => rfl
      | cons next outer => cases outer <;> exact congrArg (_ :: ·) ih

theorem assignIn_ofScopes (x : String) (v : Value) (scopes : List Scope) :
    (ofScopes functions scopes).assignIn x v =
      (Context.assignIn x v scopes).map (ofScopes functions) := by
  induction scopes with
  | nil => rfl
  | cons scope scopes ih =>
      cases scopes with
      | nil =>
          simp only [ofScopes, assignIn, Context.assignIn]
          split <;> rfl
      | cons next outer =>
          rw [ofScopes, assignIn, Context.assignIn, ih]
          split
          · rfl
          · cases h : Context.assignIn x v (next :: outer) with
            | none => rfl
            | some after =>
                -- An assignment closes no scope, so there is still a frame outside of this one.
                have hafter : after ≠ [] := by
                  rintro rfl
                  cases Context.length_assignIn h
                exact congrArg some (ofScopes_cons hafter scope).symm

end OfScopes

end Frames

namespace Context

/-- The frames of a context. Its functions are those of the outermost one. -/
def frames (c : Context) : Frames :=
  .ofScopes c.functions c.scopes

section Steps

variable (c : Context) (x : String) (v : Value) (line : Nat) (name : String) (f : HostFunction)

theorem frames_push : c.push.frames = c.frames.push := rfl

theorem frames_pop : c.pop.frames = c.frames.pop := by
  obtain ⟨functions, top, outer⟩ := c
  cases outer with
  | nil => rfl
  | cons next outer => cases outer <;> rfl

theorem scopes_frames : c.frames.map (·.scope) = c.scopes :=
  Frames.scopes_ofScopes c.functions c.scopes

theorem get?_frames : c.frames.get? x = c.get? x :=
  Frames.get?_ofScopes x

theorem function?_frames : c.frames.function? name = c.function? name :=
  Frames.function?_ofScopes (List.cons_ne_nil c.top c.outer) name

theorem frames_declare : (c.declare x v line).map frames = c.frames.declare x v line := by
  obtain ⟨functions, top, outer⟩ := c
  cases outer <;>
    · simp only [Context.declare, frames, scopes, Frames.ofScopes, Frames.declare]
      split <;> rfl

theorem frames_assign : (c.assign x v line).map frames = c.frames.assign x v line := by
  rw [Frames.assign, frames, Frames.assignIn_ofScopes]
  cases h : assignIn x v c.scopes with
  | none =>
      rw [assign_eq_error_iff.2 ⟨h, rfl⟩]
      rfl
  | some after =>
      obtain ⟨c', hc', hfunctions, rfl⟩ := exists_assign_eq_ok h line
      rw [hc', ← hfunctions]
      rfl

theorem frames_define : (c.define name f).frames = c.frames.define name f :=
  (Frames.define_ofScopes name f).symm

end Steps

end Context

namespace Frames

variable (w : World) (x : String) (v : Value) (line : Nat)

theorem frames_worldAfter_declare : ((Eval.declare x v line).worldAfter w).context.frames =
    w.context.frames.perform (.declare x v line) := by
  simp only [Eval.worldAfter, Eval.declare, perform, ← Context.frames_declare]
  cases w.context.declare x v line <;> rfl

theorem frames_worldAfter_assign : ((Eval.assign x v line).worldAfter w).context.frames =
    w.context.frames.perform (.assign x v line) := by
  simp only [Eval.worldAfter, Eval.assign, perform, ← Context.frames_assign]
  cases w.context.assign x v line <;> rfl

/-- An evaluation does to the frames of a context what can be done to scopes, one thing after the
other. -/
theorem stepwise : Eval.Stepwise fun w w' => ∃ ops : List Op, (∀ op ∈ ops, op.OnScopes) ∧
    w'.context.frames = w.context.frames.history ops where
  refl _ := ⟨[], nofun, rfl⟩
  trans := by
    rintro u v w ⟨ops, hops, hv⟩ ⟨ops', hops', hw⟩
    exact ⟨ops ++ ops', List.forall_mem_append.2 ⟨hops, hops'⟩, by rw [hw, hv, history_append]⟩
  declare x v line w :=
    ⟨[.declare x v line], List.forall_mem_singleton.2 trivial, frames_worldAfter_declare w x v line⟩
  assign x v line w :=
    ⟨[.assign x v line], List.forall_mem_singleton.2 trivial, frames_worldAfter_assign w x v line⟩
  call f vs line w := ⟨[], nofun, by rw [Eval.context_call]; rfl⟩
  push w := ⟨[.push], List.forall_mem_singleton.2 trivial, rfl⟩
  pop w := ⟨[.pop], List.forall_mem_singleton.2 trivial, w.context.frames_pop⟩

end Frames

end Abacus
