import Abacus.Proofs.Eval.Scoping

/-!
What a block can change outside of itself. An assignment is free if the block has not declared its name
before, neither in its own statements nor in those of an inner block around the assignment. Only free
assignments reach the scopes that were open before, and each of them only the innermost scope that has
the name. This is shown of single steps and carried along the statements: a name that one of them has
declared stands for a variable of the block from then on.
-/
namespace Abacus

namespace Expr

mutual

/-- The variables that an expression assigns. -/
def assigned : Expr → List String
  | number _ _ | name _ _ => []
  | negate _ e | not _ e | group e => e.assigned
  | call _ _ arguments => assignedAll arguments
  | binary _ _ left right => left.assigned ++ right.assigned
  | assign _ x e => e.assigned ++ [x]

def assignedAll : List Expr → List String
  | [] => []
  | e :: es => e.assigned ++ assignedAll es

end

end Expr

namespace Statement

mutual

/-- The names that a statement assigns freely. An initializer comes before the declaration. -/
def freeAssigned : Statement → List String
  | declare _ _ e | expression e => e.assigned
  | block _ body => freeAssignedAll body

/-- The names that some statements assign freely: those of the first one, and those of the others that
the first one does not declare. -/
def freeAssignedAll : List Statement → List String
  | [] => []
  | s :: rest => s.freeAssigned ++ (freeAssignedAll rest).filter (· ∉ s.declared)

end

end Statement

def Block.freeAssigned (b : Block) : List String :=
  Statement.freeAssignedAll b.statements

namespace Context

/-- The value of a variable in the scope at an index, counted from the inside out. -/
def valueAt (c : Context) (index : Nat) (x : String) : Option Value :=
  c.scopes[index]?.bind (·.get? x)

/-- The scope at an index is the innermost that has a variable of that name. -/
def Finds (c : Context) (index : Nat) (x : String) : Prop :=
  c.owns index x ∧ ∀ i < index, c.owns i x = false

/-- The second context is the first with a value bound to one name in one scope. -/
structure Binds (index : Nat) (x : String) (v : Value) (c c' : Context) : Prop where
  depth_eq : c'.depth = c.depth
  functions_eq : c'.functions = c.functions
  valueAt_eq : ∀ i y, c'.valueAt i y = if i = index ∧ y = x then some v else c.valueAt i y

namespace Binds

variable {c c' : Context} {x : String} {v : Value} {line : Nat}

theorem declare (h : c.declare x v line = .ok c') : Binds 0 x v c c' := by
  unfold Context.declare at h
  split at h
  · cases h
  · cases h
    refine ⟨rfl, rfl, fun i y => ?_⟩
    cases i with
    | zero => simpa [valueAt, scopes] using Bindings.get?_insert c.top x y v
    | succ i => rfl

/-- An assignment binds in the innermost scope that has the name. -/
theorem exists_assignIn {scopes scopes' : List Scope} (h : assignIn x v scopes = some scopes') :
    ∃ index : Nat, (scopes[index]?.any (·.contains x) ∧
        ∀ i < index, scopes[i]?.any (·.contains x) = false) ∧
      ∀ (i : Nat) (y : String), scopes'[i]?.bind (·.get? y) =
        if i = index ∧ y = x then some v else scopes[i]?.bind (·.get? y) := by
  induction scopes generalizing scopes' with
  | nil => cases h
  | cons scope rest ih =>
      rw [assignIn] at h
      split at h
      · next hx =>
        cases h
        refine ⟨0, ⟨hx, fun i hi => absurd hi (Nat.not_lt_zero i)⟩, fun i y => ?_⟩
        cases i with
        | zero => simpa using Bindings.get?_insert scope x y v
        | succ i => rfl
      · next hx =>
        obtain ⟨rest', hrest, rfl⟩ := Option.map_eq_some_iff.1 h
        obtain ⟨index, ⟨howns, hinner⟩, hvalue⟩ := ih hrest
        refine ⟨index + 1, ⟨howns, fun i hi => ?_⟩, fun i y => ?_⟩
        · cases i with
          | zero => exact Bool.not_eq_true _ ▸ hx
          | succ i => exact hinner i (Nat.lt_of_succ_lt_succ hi)
        · cases i with
          | zero => rfl
          | succ i => simpa using hvalue i y

theorem assign (h : c.assign x v line = .ok c') :
    ∃ index, c.Finds index x ∧ Binds index x v c c' := by
  obtain ⟨hfunctions, hscopes⟩ := assign_eq_ok_iff.1 h
  obtain ⟨index, hfinds, hvalue⟩ := exists_assignIn hscopes
  exact ⟨index, hfinds, length_assignIn hscopes, hfunctions, hvalue⟩

end Binds

/-- The second context has the scopes of the first, with other values at most where a free name is found
and for names that have been declared in the innermost scope. -/
structure Touches (declared free : List String) (c c' : Context) : Prop
    extends Keeps declared c c' where
  valueAt_eq : ∀ index x, c'.valueAt index x = c.valueAt index x ∨ index = 0 ∧ x ∈ declared ∨
    x ∈ free ∧ c.Finds index x

namespace Touches

variable {declared more free others : List String} {c c' c'' : Context}

theorem refl (c : Context) : c.Touches [] [] c :=
  ⟨.refl c, fun _ _ => .inl rfl⟩

theorem mono (h : c.Touches declared free c') (hd : declared ⊆ more) (hf : free ⊆ others) :
    c.Touches more others c' := by
  refine ⟨h.toKeeps.mono hd, fun index x => ?_⟩
  obtain heq | ⟨hi, hx⟩ | ⟨hx, hfinds⟩ := h.valueAt_eq index x
  · exact .inl heq
  · exact .inr (.inl ⟨hi, hd hx⟩)
  · exact .inr (.inr ⟨hf hx, hfinds⟩)

theorem finds (h : c.Touches declared free c') {index : Nat} {x : String} (hx : x ∉ declared)
    (hfinds : c'.Finds index x) : c.Finds index x := by
  obtain ⟨howns, hinner⟩ := hfinds
  refine ⟨(h.new_name index x howns).resolve_right fun hd => hx hd.2, fun i hi => ?_⟩
  rw [← Bool.not_eq_true]
  intro hown
  have hown' := h.owns_of_owns i x hown
  rw [hinner i hi] at hown'
  cases hown'

/-- One step after another, if the first has declared what it was to declare. -/
theorem trans (h : c.Touches declared free c') (h' : c'.Touches more others c'')
    (hd : ∀ x ∈ declared, c'.owns 0 x) :
    c.Touches (declared ++ more) (free ++ others.filter (· ∉ declared)) c'' := by
  refine ⟨h.toKeeps.trans h'.toKeeps, fun index x => ?_⟩
  obtain heq | ⟨hi, hx⟩ | ⟨hx, hfinds⟩ := h'.valueAt_eq index x
  · rw [heq]
    obtain heq | ⟨hi, hx⟩ | ⟨hx, hfinds⟩ := h.valueAt_eq index x
    · exact .inl heq
    · exact .inr (.inl ⟨hi, List.mem_append_left _ hx⟩)
    · exact .inr (.inr ⟨List.mem_append_left _ hx, hfinds⟩)
  · exact .inr (.inl ⟨hi, List.mem_append_right _ hx⟩)
  · by_cases hdeclared : x ∈ declared
    · -- The variable that has been declared is in the way of all others.
      obtain hi | hi := Nat.eq_zero_or_pos index
      · exact .inr (.inl ⟨hi, List.mem_append_left _ hdeclared⟩)
      · have hnone := hfinds.2 0 hi
        rw [hd x hdeclared] at hnone
        cases hnone
    · refine .inr (.inr ⟨List.mem_append_right _ ?_, h.finds hdeclared hfinds⟩)
      exact List.mem_filter.2 ⟨hx, decide_eq_true hdeclared⟩

theorem idle (h : c.Touches declared free c') (h' : c'.Touches [] [] c'') :
    c.Touches declared free c'' := by
  have hkeeps := h.toKeeps.trans h'.toKeeps
  rw [List.append_nil] at hkeeps
  refine ⟨hkeeps, fun index x => ?_⟩
  obtain heq | ⟨_, hx⟩ | ⟨hx, _⟩ := h'.valueAt_eq index x
  · rw [heq]
    exact h.valueAt_eq index x
  · cases hx
  · cases hx

theorem declare {x : String} {v : Value} {line : Nat} (h : c.declare x v line = .ok c') :
    c.Touches [x] [] c' := by
  refine ⟨.declare h, fun index y => ?_⟩
  rw [(Binds.declare h).valueAt_eq]
  split
  · next heq => exact .inr (.inl ⟨heq.1, List.mem_singleton.2 heq.2⟩)
  · exact .inl rfl

theorem assign {x : String} {v : Value} {line : Nat} (h : c.assign x v line = .ok c') :
    c.Touches [] [x] c' := by
  obtain ⟨found, hfinds, hbinds⟩ := Binds.assign h
  refine ⟨.assign h, fun index y => ?_⟩
  rw [hbinds.valueAt_eq]
  split
  · next heq =>
    obtain ⟨rfl, rfl⟩ := heq
    exact .inr (.inr ⟨List.mem_singleton_self y, hfinds⟩)
  · exact .inl rfl

/-- What has been declared in a scope is gone when it is closed. -/
theorem pop (h : c.push.Touches declared free c') : c.Touches [] free c'.pop := by
  refine ⟨h.toKeeps.pop, fun index x => ?_⟩
  have hdepth := h.depth_eq
  obtain ⟨functions, top, outer⟩ := c'
  cases outer with
  | nil => simp [depth, scopes, push] at hdepth
  | cons scope outer =>
      obtain heq | ⟨hi, _⟩ | ⟨hx, howns, hinner⟩ := h.valueAt_eq (index + 1) x
      · exact .inl heq
      · cases hi
      · exact .inr (.inr ⟨hx, howns, fun i hi => hinner (i + 1) (Nat.succ_lt_succ hi)⟩)

end Touches

end Context

namespace Eval

variable {α β : Type} {declared more free others : List String}

/-- A computation changes no more of any context than the names allow. -/
def Touches (declared free : List String) (m : Eval α) : Prop :=
  ∀ w : World, w.context.Touches declared free (m.worldAfter w).context

theorem touches_pure (a : α) : Touches [] [] (pure a) :=
  fun w => .refl w.context

theorem touches_lift (result : Except RuntimeError α) : Touches [] [] (lift result) := by
  intro w
  cases result <;> exact .refl w.context

theorem touches_lookup (x : String) (line : Nat) : Touches [] [] (lookup x line) := by
  intro w
  simp only [worldAfter, lookup]
  cases w.context.get? x <;> exact .refl w.context

theorem touches_declare (x : String) (v : Value) (line : Nat) :
    Touches [x] [] (declare x v line) := by
  intro w
  simp only [worldAfter, declare]
  cases hd : w.context.declare x v line with
  | error e => exact (Context.Touches.refl w.context).mono (List.nil_subset _) (List.nil_subset _)
  | ok c => exact .declare hd

theorem touches_assign (x : String) (v : Value) (line : Nat) : Touches [] [x] (assign x v line) := by
  intro w
  simp only [worldAfter, assign]
  cases ha : w.context.assign x v line with
  | error e => exact (Context.Touches.refl w.context).mono (List.nil_subset _) (List.nil_subset _)
  | ok c => exact .assign ha

theorem touches_call (f : String) (vs : List Value) (line : Nat) : Touches [] [] (call f vs line) := by
  intro w
  rw [context_call]
  exact .refl w.context

theorem worldAfter_bind (m : Eval α) (next : α → Eval β) (w : World) :
    (m >>= next).worldAfter w =
      match m w with
      | .ok a u => (next a).worldAfter u
      | .error _ u => u := by
  rw [worldAfter, bind_apply]
  cases m w <;> rfl

/-- A computation and what follows it, if the names allow for both. -/
theorem Touches.seq {m : Eval α} {next : α → Eval β} (hm : Touches declared free m)
    (hd : declared ⊆ more) (hf : free ⊆ others)
    (hn : ∀ {w a u}, m w = .ok a u → w.context.Touches declared free u.context →
      w.context.Touches more others ((next a).worldAfter u).context) :
    Touches more others (m >>= next) := by
  intro w
  have hw := hm w
  rw [worldAfter_bind]
  rw [worldAfter] at hw
  cases hr : m w with
  | error e u =>
      rw [hr] at hw
      exact hw.mono hd hf
  | ok a u =>
      rw [hr] at hw
      exact hn hr hw

theorem Touches.bind {m : Eval α} {next : α → Eval β} (hm : Touches declared free m)
    (hd : ∀ {w a u}, m w = .ok a u → ∀ x ∈ declared, u.context.owns 0 x)
    (hn : ∀ a, Touches more others (next a)) :
    Touches (declared ++ more) (free ++ others.filter (· ∉ declared)) (m >>= next) :=
  hm.seq (List.subset_append_left _ _) (List.subset_append_left _ _)
    fun hok h => h.trans (hn _ _) (hd hok)

theorem Touches.andThen {m : Eval α} {next : α → Eval β} (hm : Touches [] free m)
    (hn : ∀ a, Touches more others (next a)) : Touches more (free ++ others) (m >>= next) := by
  have hfilter : others.filter (· ∉ ([] : List String)) = others :=
    List.filter_eq_self.2 fun _ _ => decide_eq_true List.not_mem_nil
  have h := hm.bind (fun _ _ hx => nomatch hx) hn
  rwa [hfilter] at h

theorem Touches.idle {m : Eval α} {next : α → Eval β} (hm : Touches declared free m)
    (hn : ∀ a, Touches [] [] (next a)) : Touches declared free (m >>= next) :=
  hm.seq (List.Subset.refl _) (List.Subset.refl _) fun _ h => h.idle (hn _ _)

theorem Touches.inScope {m : Eval α} (hm : Touches declared free m) : Touches [] free (inScope m) := by
  intro w
  rw [worldAfter_inScope]
  exact (hm w.push).pop

end Eval

open Eval

theorem Expr.touches_evalAll {es : List Expr} (h : ∀ e ∈ es, Touches [] e.assigned e.eval) :
    Touches [] (assignedAll es) (evalAll es) := by
  induction es with
  | nil => exact touches_pure _
  | cons e es ih =>
      obtain ⟨he, hes⟩ := List.forall_mem_cons.1 h
      rw [evalAll]
      exact he.andThen fun v => (ih hes).idle fun vs => touches_pure _

theorem Expr.touches_eval (e : Expr) : Touches [] e.assigned e.eval := by
  induction e with
  | number _ _ =>
      rw [eval]
      exact touches_pure _
  | name line x =>
      rw [eval]
      exact touches_lookup x line
  | negate line e ih =>
      rw [eval]
      exact ih.idle fun v => touches_lift _
  | not line e ih =>
      rw [eval]
      exact ih.idle fun v => touches_pure _
  | group e ih =>
      rw [eval]
      exact ih
  | call line f es ih =>
      rw [eval]
      exact (touches_evalAll ih).idle fun vs => touches_call f vs line
  | binary line op l r ihl ihr =>
      rw [eval]
      exact ihl.andThen fun _ => ihr.idle fun _ => touches_lift _
  | assign line x e ih =>
      rw [eval]
      exact ih.andThen fun v => (touches_assign x v line).idle fun _ => touches_pure _

theorem Statement.touches_evalFrom {body : List Statement}
    (h : ∀ s ∈ body, Touches s.declared s.freeAssigned s.eval) (last : Option Value) :
    Touches (declaredAll body) (freeAssignedAll body) (evalFrom last body) := by
  induction body generalizing last with
  | nil => exact touches_pure last
  | cons s body ih =>
      obtain ⟨hs, hbody⟩ := List.forall_mem_cons.1 h
      rw [evalFrom]
      -- What `s` has declared is there for the rest, so the rest does not assign it outside.
      exact hs.bind (fun hok _ hx => owns_of_eval hok hx) fun v => ih hbody v

theorem Statement.touches_eval (s : Statement) : Touches s.declared s.freeAssigned s.eval := by
  induction s with
  | declare line x e =>
      rw [eval]
      have h := e.touches_eval.andThen fun v =>
        (touches_declare x v line).idle fun _ => touches_pure (some v)
      rwa [List.append_nil] at h
  | expression e =>
      rw [eval]
      exact e.touches_eval.idle fun v => touches_pure _
  | block line body ih =>
      rw [eval]
      exact (touches_evalFrom ih none).inScope

/-- However the evaluation of a block ends, the scopes around it are as many as before, and a variable
of theirs has another value only if the block assigns its name freely and the variable is the one that
the name stood for before the block. -/
theorem Block.evalScoped_valueAt (b : Block) (w : World) (index : Nat) (x : String) :
    let c := w.context
    let c' := (b.evalScoped.worldAfter w).context
    c'.depth = c.depth ∧
      (c'.valueAt index x = c.valueAt index x ∨ x ∈ b.freeAssigned ∧ c.Finds index x) := by
  intro c c'
  have h : c.Touches [] b.freeAssigned c' :=
    (Statement.touches_evalFrom (fun s _ => s.touches_eval) none).inScope w
  refine ⟨h.depth_eq, ?_⟩
  obtain heq | ⟨_, hx⟩ | hx := h.valueAt_eq index x
  · exact .inl heq
  · cases hx
  · exact .inr hx

end Abacus
