import Abacus.Proofs.Eval.Scoping
import Abacus.Session

/-!
Local names can be renamed. A block that declares a variable does the same under another name for
it, if that name is not used in the block. What has to be renamed is a matter of place: the uses after
the declaration, and in an inner block only those before a declaration of the old name there. The two
runs are compared scope by scope. The block's own scope holds the variable under one name in the first
run and under the other in the second, the scopes opened since are the same and do not have the new
name, and the scopes below are the same.
-/
namespace Abacus

open Eval

/-- Renames a variable in an expression. -/
def Expr.rename (x y : String) (e : Expr) : Expr :=
  e.mapNames fun z => if z = x then y else z

namespace Statement

mutual

/-- Renames a variable that stands outside of a statement. -/
def rename (x y : String) : Statement → Statement
  | declare line z e => declare line z (e.rename x y)
  | expression e => expression (e.rename x y)
  | block line body => block line (renameAll x y body)

/-- Renames a variable that stands outside of some statements. It is out of sight as soon as one of
them has declared another of its name. -/
def renameAll (x y : String) : List Statement → List Statement
  | [] => []
  | s :: rest => s.rename x y :: if x ∈ s.declared then rest else renameAll x y rest

end

/-- Renames the variable `x` that one of some statements declares. -/
def renameLocal (x y : String) : List Statement → List Statement
  | [] => []
  | declare line z e :: rest =>
    if z = x then declare line y e :: renameAll x y rest
    else declare line z e :: renameLocal x y rest
  | s :: rest => s :: renameLocal x y rest

end Statement

/-- Renames a variable of the block's own scope. -/
def Block.rename (x y : String) (b : Block) : Block :=
  { b with statements := Statement.renameLocal x y b.statements }

namespace Context

/-- Whether one of the innermost `depth` scopes has a variable of that name. -/
def shadows (x : String) (depth : Nat) (scopes : List Scope) : Bool :=
  (scopes.take depth).any (·.contains x)

/-- Two stacks of scopes that differ in the name of one variable: `x` in the first and `y` in the
second, in the scope below the innermost `depth`. -/
inductive Renamed (x y : String) : Nat → List Scope → List Scope → Prop where
  | own {scope scope' : Scope} {outer : List Scope} : scope.contains x →
      scope'.get? y = scope.get? x → (∀ z, z ≠ x → z ≠ y → scope'.get? z = scope.get? z) →
      Renamed x y 0 (scope :: outer) (scope' :: outer)
  | inner {depth : Nat} {scope : Scope} {rest rest' : List Scope} : scope.contains y = false →
      Renamed x y depth rest rest' → Renamed x y (depth + 1) (scope :: rest) (scope :: rest')

/-- What a name of the first program is in the second, depending on whether `x` is another variable
there. -/
def newName (x y : String) (shadowed : Bool) : String → String :=
  if shadowed then id else fun z => if z = x then y else z

section NewName

variable {x y z : String}

theorem newName_of_ne (h : z ≠ x) (shadowed : Bool) : newName x y shadowed z = z := by
  cases shadowed <;> simp [newName, h]

/-- In a scope above, a name that is bound there keeps its meaning. -/
theorem newName_inner (scope : Scope) (shadowed : Bool) :
    newName x y (scope.contains x || shadowed) z =
      if scope.contains z then z else newName x y shadowed z := by
  by_cases hz : z = x
  · subst hz
    cases h : scope.contains z <;> simp [newName]
  · rw [newName_of_ne hz, newName_of_ne hz, ite_self]

theorem contains_newName {scope : Scope} (hy : scope.contains y = false)
    (hz : scope.contains z = false) (shadowed : Bool) :
    scope.contains (newName x y shadowed z) = false := by
  cases shadowed with
  | true => exact hz
  | false =>
      by_cases h : z = x
      · simp [newName, h, hy]
      · rw [newName_of_ne h]
        exact hz

end NewName

theorem shadows_cons (x : String) (depth : Nat) (scope : Scope) (rest : List Scope) :
    shadows x (depth + 1) (scope :: rest) = (scope.contains x || shadows x depth rest) := rfl

namespace Renamed

variable {x y z : String} {depth : Nat} {scopes scopes' : List Scope}

/-- The renamed variable can be seen from everywhere above, if not behind another of its name. -/
theorem exists_contains (h : Renamed x y depth scopes scopes') :
    ∃ scope ∈ scopes, scope.contains x := by
  induction h with
  | own hx _ _ => exact ⟨_, List.mem_cons_self, hx⟩
  | inner _ _ ih =>
      obtain ⟨scope, hmem, hx⟩ := ih
      exact ⟨scope, List.mem_cons_of_mem _ hmem, hx⟩

theorem get?_eq (h : Renamed x y depth scopes scopes') (hz : z ≠ y) :
    scopes'.findSome? (·.get? (newName x y (shadows x depth scopes) z)) =
      scopes.findSome? (·.get? z) := by
  induction h with
  | @own scope scope' outer hx hy hother =>
      change (scope' :: outer).findSome? (·.get? (newName x y false z)) = _
      by_cases hzx : z = x
      · subst hzx
        obtain ⟨v, hv⟩ := Option.isSome_iff_exists.1 hx
        have hv' : scope'.get? y = some v := hy.trans hv
        simp [newName, hv, hv']
      · rw [newName_of_ne hzx, List.findSome?_cons, List.findSome?_cons, hother z hzx hz]
  | @inner depth scope rest rest' hy _ ih =>
      rw [shadows_cons, newName_inner, List.findSome?_cons, List.findSome?_cons]
      cases hc : scope.contains z with
      | true =>
          obtain ⟨v, hv⟩ := Option.isSome_iff_exists.1 hc
          simp [hv]
      | false =>
          have hnew := contains_newName (x := x) hy hc (shadows x depth rest)
          rw [Bindings.contains, Option.isSome_eq_false_iff, Option.isNone_iff_eq_none] at hc hnew
          simp [hc, hnew, ih]

/-- Corresponding names stand for corresponding variables, or for none. -/
theorem assignIn (h : Renamed x y depth scopes scopes') {z' : String} (hz : z ≠ y)
    (hz' : z' = newName x y (shadows x depth scopes) z) (v : Value) :
    (∃ after after', Context.assignIn z v scopes = some after ∧
      Context.assignIn z' v scopes' = some after' ∧ Renamed x y depth after after') ∨
    Context.assignIn z v scopes = none ∧ Context.assignIn z' v scopes' = none := by
  induction h with
  | @own scope scope' outer hx hy hother =>
      change z' = newName x y false z at hz'
      by_cases hzx : z = x
      · have hy' : scope'.contains y := by
          rw [Bindings.contains, hy]
          exact hx
        obtain rfl : z' = y := by simp [hz', newName, hzx]
        subst hzx
        refine .inl ⟨scope.insert z v :: outer, scope'.insert z' v :: outer, ?_, ?_, .own ?_ ?_ ?_⟩
        · simp [Context.assignIn, hx]
        · simp [Context.assignIn, hy']
        · simp [Bindings.contains]
        · simp
        · intro a ha hay
          rw [Bindings.get?_insert_of_ne _ _ hay, Bindings.get?_insert_of_ne _ _ ha, hother a ha hay]
      · obtain rfl : z' = z := hz'.trans (newName_of_ne hzx false)
        have hcontains : scope'.contains z' = scope.contains z' := by
          rw [Bindings.contains, hother z' hzx hz, Bindings.contains]
        simp only [Context.assignIn, hcontains]
        cases hc : scope.contains z' with
        | true =>
            refine .inl ⟨scope.insert z' v :: outer, scope'.insert z' v :: outer, rfl, rfl,
              .own ?_ ?_ ?_⟩
            · rw [Bindings.contains_insert_of_contains _ _ _ _ hc]
              exact hx
            · rw [Bindings.get?_insert_of_ne _ _ (Ne.symm hz),
                Bindings.get?_insert_of_ne _ _ (Ne.symm hzx), hy]
            · intro a ha hay
              rw [Bindings.get?_insert, Bindings.get?_insert, hother a ha hay]
        | false =>
            cases Context.assignIn z' v outer with
            | none => exact .inr ⟨rfl, rfl⟩
            | some outer' => exact .inl ⟨_, _, rfl, rfl, .own hx hy hother⟩
  | @inner depth scope rest rest' hy hrest ih =>
      rw [shadows_cons, newName_inner] at hz'
      cases hc : scope.contains z with
      | true =>
          obtain rfl : z' = z := by simpa [hc] using hz'
          refine .inl ⟨scope.insert z' v :: rest, scope.insert z' v :: rest', ?_, ?_, .inner ?_ hrest⟩
          · simp [Context.assignIn, hc]
          · simp [Context.assignIn, hc]
          · rw [Bindings.contains_insert_of_contains _ _ _ _ hc]
            exact hy
      | false =>
          have hz' : z' = newName x y (shadows x depth rest) z := by simpa [hc] using hz'
          have hc' : scope.contains z' = false := by
            rw [hz']
            exact contains_newName hy hc _
          simp only [Context.assignIn, hc, hc']
          obtain ⟨after, after', ha, ha', hafter⟩ | ⟨ha, ha'⟩ := ih hz'
          · exact .inl ⟨scope :: after, scope :: after', by simp [ha], by simp [ha'],
              .inner hy hafter⟩
          · exact .inr ⟨by simp [ha], by simp [ha']⟩

/-- Another variable can be declared in the innermost scopes of both. -/
theorem insert {top top' : Scope} {outer outer' : List Scope}
    (h : Renamed x y depth (top :: outer) (top' :: outer')) (hz : z ≠ y) (hzx : depth = 0 → z ≠ x)
    (v : Value) : top'.contains z = top.contains z ∧
      Renamed x y depth (top.insert z v :: outer) (top'.insert z v :: outer') := by
  cases h with
  | own hx hy hother =>
      have hzx := hzx rfl
      refine ⟨by rw [Bindings.contains, hother z hzx hz, Bindings.contains], .own ?_ ?_ ?_⟩
      · rw [Bindings.contains_insert, hx, Bool.or_true]
      · rw [Bindings.get?_insert_of_ne _ _ (Ne.symm hz),
          Bindings.get?_insert_of_ne _ _ (Ne.symm hzx), hy]
      · intro a ha hay
        rw [Bindings.get?_insert, Bindings.get?_insert, hother a ha hay]
  | inner hy hrest =>
      refine ⟨rfl, .inner ?_ hrest⟩
      rw [Bindings.contains_insert, hy, decide_eq_false (Ne.symm hz), Bool.or_false]

end Renamed

theorem shadows_iff {c : Context} {x : String} {depth : Nat} :
    shadows x depth c.scopes ↔ ∃ index < depth, c.owns index x := by
  simp only [shadows, owns, List.any_eq_true, List.mem_take_iff_getElem, Option.any_eq_true]
  constructor
  · rintro ⟨scope, ⟨index, hi, rfl⟩, hx⟩
    exact ⟨index, by omega, _, List.getElem?_eq_getElem _, hx⟩
  · rintro ⟨index, hi, scope, hscope, hx⟩
    obtain ⟨hlt, rfl⟩ := List.getElem?_eq_some_iff.1 hscope
    exact ⟨_, ⟨index, by omega, rfl⟩, hx⟩

/-- What is declared in between can hide a variable, and nothing else. -/
theorem Keeps.shadows_eq {c c' : Context} {declared : List String} (h : c.Keeps declared c')
    {x : String} {depth : Nat} (hx : x ∈ declared → depth ≠ 0 ∧ c'.owns 0 x) :
    shadows x depth c'.scopes = (shadows x depth c.scopes || decide (x ∈ declared)) := by
  rw [Bool.eq_iff_iff, Bool.or_eq_true_iff, shadows_iff, shadows_iff, decide_eq_true_iff]
  constructor
  · rintro ⟨index, hi, howns⟩
    obtain howns | ⟨_, hmem⟩ := h.new_name index x howns
    · exact .inl ⟨index, hi, howns⟩
    · exact .inr hmem
  · rintro (⟨index, hi, howns⟩ | hmem)
    · exact ⟨index, hi, h.owns_of_owns index x howns⟩
    · exact ⟨0, Nat.pos_of_ne_zero (hx hmem).1, (hx hmem).2⟩

theorem ne_of_assignIn_eq_none {scopes : List Scope} {x z : String} {v : Value}
    (h : assignIn z v scopes = none) (hx : ∃ scope ∈ scopes, scope.contains x) : z ≠ x := by
  rintro rfl
  induction scopes with
  | nil => simp at hx
  | cons scope rest ih =>
      rw [assignIn] at h
      split at h
      · cases h
      · next hz =>
        refine ih (Option.map_eq_none_iff.1 h) ?_
        simpa [hz] using hx

end Context

/-- Two worlds that differ in the name of one variable, and in what is noted of it. -/
structure World.Renamed (x y : String) (depth : Nat) (w w' : World) : Prop where
  functions_eq : w'.context.functions = w.context.functions
  output_eq : w'.output = w.output
  scopes : Context.Renamed x y depth w.context.scopes w'.context.scopes

namespace World.Renamed

variable {x y : String} {depth : Nat} {w w' : World}

theorem push (h : w.Renamed x y depth w') : w.push.Renamed x y (depth + 1) w'.push :=
  ⟨h.functions_eq, h.output_eq, .inner rfl h.scopes⟩

theorem pop (h : w.Renamed x y (depth + 1) w') : w.pop.Renamed x y depth w'.pop := by
  obtain ⟨⟨functions, top, outer⟩, output, trace⟩ := w
  obtain ⟨⟨functions', top', outer'⟩, output', trace'⟩ := w'
  obtain ⟨hfunctions, houtput, hscopes⟩ := h
  cases hscopes with
  | inner _ hrest => cases hrest with
    | own hx hy hother => exact ⟨hfunctions, houtput, .own hx hy hother⟩
    | inner hy hrest => exact ⟨hfunctions, houtput, .inner hy hrest⟩

end World.Renamed

namespace Eval

variable {α β : Type} {x y z : String} {depth : Nat}

/-- The second computation does what the first does, for the other name. What it is may depend on
whether the variable is behind another of its name at the start. -/
def Follows (x y : String) (depth : Nat) (m : Eval α) (m' : Bool → Eval α) : Prop :=
  ∀ ⦃w w' : World⦄, w.Renamed x y depth w' →
    Agree (World.Renamed x y depth) id (m w) (m' (Context.shadows x depth w.context.scopes) w')

theorem agree_lookup {w w' : World} (h : w.Renamed x y depth w') (hz : z ≠ y) (line : Nat) :
    Agree (World.Renamed x y depth) id (lookup z line w)
      (lookup (Context.newName x y (Context.shadows x depth w.context.scopes) z) line w') := by
  have hget := h.scopes.get?_eq hz
  simp only [lookup, Context.get?, hget]
  cases hv : w.context.scopes.findSome? (·.get? z) with
  | some v => exact .ok h
  | none =>
      have hzx : z ≠ x := by
        rintro rfl
        obtain ⟨scope, hmem, hx⟩ := h.scopes.exists_contains
        rw [List.findSome?_eq_none_iff] at hv
        simp [Bindings.contains, hv scope hmem] at hx
      rw [Context.newName_of_ne hzx]
      exact .error h

theorem agree_assign {w w' : World} (h : w.Renamed x y depth w') (hz : z ≠ y) (v : Value)
    (line : Nat) :
    Agree (World.Renamed x y depth) id (assign z v line w)
      (assign (Context.newName x y (Context.shadows x depth w.context.scopes) z) v line w') := by
  obtain ⟨after, after', ha, ha', hafter⟩ | ⟨ha, ha'⟩ := h.scopes.assignIn hz rfl v
  · obtain ⟨c, hc, hfunctions, hscopes⟩ := Context.exists_assign_eq_ok ha line
    obtain ⟨c', hc', hfunctions', hscopes'⟩ := Context.exists_assign_eq_ok ha' line
    simp only [assign, hc, hc']
    refine .ok ⟨?_, h.output_eq, ?_⟩
    · exact hfunctions'.trans (h.functions_eq.trans hfunctions.symm)
    · change Context.Renamed x y depth c.scopes c'.scopes
      rw [hscopes, hscopes']
      exact hafter
  · have hzx := Context.ne_of_assignIn_eq_none ha h.scopes.exists_contains
    rw [Context.newName_of_ne hzx] at ha' ⊢
    have hc : w.context.assign z v line = _ := Context.assign_eq_error_iff.2 ⟨ha, rfl⟩
    have hc' : w'.context.assign z v line = _ := Context.assign_eq_error_iff.2 ⟨ha', rfl⟩
    simp only [assign, hc, hc']
    exact .error h

theorem agree_call {w w' : World} (h : w.Renamed x y depth w') (f : String) (vs : List Value)
    (line : Nat) : Agree (World.Renamed x y depth) id (call f vs line w) (call f vs line w') :=
  .call h (congrArg (Bindings.get? · f) h.functions_eq)
    ⟨h.functions_eq, congrArg (· ++ _) h.output_eq, h.scopes⟩ vs line

/-- A variable that is not declared by the renamed statement itself. -/
theorem agree_declare {w w' : World} (h : w.Renamed x y depth w') (hz : z ≠ y)
    (hzx : depth = 0 → z ≠ x) (v : Value) (line : Nat) :
    Agree (World.Renamed x y depth) id (declare z v line w) (declare z v line w') := by
  obtain ⟨hcontains, hscopes⟩ := h.scopes.insert hz hzx v
  exact .declare h hcontains ⟨h.functions_eq, h.output_eq, hscopes⟩

theorem Follows.bind {m : Eval α} {m' : Bool → Eval α} {next next' : α → Eval β}
    (hm : Follows x y depth m m')
    (hn : ∀ {a u u'}, World.Renamed x y depth u u' →
      Agree (World.Renamed x y depth) id (next a u) (next' a u')) :
    Follows x y depth (m >>= next) (fun shadowed => m' shadowed >>= next') :=
  fun _ _ h => (hm h).bind (fun _ hu => hn hu) id

end Eval

open Eval

theorem Expr.follows_eval {x y : String} {e : Expr} (hy : y ∉ e.vars) (depth : Nat) :
    Follows x y depth e.eval fun shadowed => (e.mapNames (Context.newName x y shadowed)).eval := by
  intro w w' h
  -- No part of an expression declares anything, so what is hidden at the start stays hidden.
  let R : World → World → Prop := fun u u' =>
    u.Renamed x y depth u' ∧
      Context.shadows x depth u.context.scopes = Context.shadows x depth w.context.scopes
  have step : ∀ {α : Type} {m : Eval α} {result u u'}, Keeps [] m → R u u' →
      Agree (World.Renamed x y depth) id (m u) result → Agree R id (m u) result :=
    fun hm hu hagree => (hagree.and_keeps hm).mono fun ⟨hr, hkeeps⟩ =>
      ⟨hr, (hkeeps.shadows_eq (by simp)).trans (by simpa using hu.2)⟩
  have hne : ∀ z ∈ e.vars, z ≠ y := fun z hz => ne_of_mem_of_not_mem hz hy
  have hsim : Simulates R id e.eval
      (e.mapNames (Context.newName x y (Context.shadows x depth w.context.scopes))).eval := by
    refine simulates_mapNames (fun z hz line u u' hu => ?_) (fun z hz v line u u' hu => ?_)
      (fun g _ vs line u u' hu => ?_)
    · rw [← hu.2]
      exact step (keeps_lookup z line) hu (agree_lookup hu.1 (hne z hz) line)
    · rw [← hu.2]
      exact step (keeps_assign z v line) hu (agree_assign hu.1 (hne z hz) v line)
    · exact step (keeps_call g vs line) hu (agree_call hu.1 g vs line)
  exact (hsim ⟨h, rfl⟩).mono And.left

namespace Statement

variable {x y : String} {depth : Nat}

section Hidden

variable (x y) (shadowed : Bool)

/-- Renames a variable that stands outside of a statement and may be behind another of its name. -/
def renameUnless (s : Statement) : Statement :=
  if shadowed then s else s.rename x y

def renameAllUnless (body : List Statement) : List Statement :=
  if shadowed then body else renameAll x y body

theorem renameUnless_declare (line : Nat) (z : String) (e : Expr) :
    renameUnless x y shadowed (declare line z e) =
      declare line z (e.mapNames (Context.newName x y shadowed)) := by
  cases shadowed with
  | true => simp [renameUnless, Context.newName, Expr.mapNames_id]
  | false => rfl

theorem renameUnless_expression (e : Expr) :
    renameUnless x y shadowed (expression e) =
      expression (e.mapNames (Context.newName x y shadowed)) := by
  cases shadowed with
  | true => simp [renameUnless, Context.newName, Expr.mapNames_id]
  | false => rfl

theorem renameUnless_block (line : Nat) (body : List Statement) :
    renameUnless x y shadowed (block line body) = block line (renameAllUnless x y shadowed body) := by
  cases shadowed <;> rfl

theorem renameAllUnless_nil : renameAllUnless x y shadowed [] = [] := by
  cases shadowed <;> rfl

theorem renameAllUnless_cons (s : Statement) (rest : List Statement) :
    renameAllUnless x y shadowed (s :: rest) =
      renameUnless x y shadowed s ::
        renameAllUnless x y (shadowed || decide (x ∈ s.declared)) rest := by
  cases shadowed with
  | true => rfl
  | false => by_cases h : x ∈ s.declared <;> simp [renameAllUnless, renameUnless, renameAll, h]

end Hidden

/-- Statements follow a renaming if each of them does. -/
theorem follows_evalFrom {body : List Statement}
    (h : ∀ s ∈ body, y ∉ s.vars → (depth = 0 → x ∉ s.declared) →
      Follows x y depth s.eval fun shadowed => (s.renameUnless x y shadowed).eval)
    (hy : y ∉ varsAll body) (hx : depth = 0 → x ∉ declaredAll body) (last : Option Value) :
    Follows x y depth (evalFrom last body)
      fun shadowed => evalFrom last (renameAllUnless x y shadowed body) := by
  induction body generalizing last with
  | nil =>
      simp only [renameAllUnless_nil]
      exact fun _ _ hw => .ok hw
  | cons s body ih =>
      obtain ⟨hs, hbody⟩ := List.forall_mem_cons.1 h
      rw [varsAll, List.mem_append, not_or] at hy
      simp only [declaredAll, List.flatMap_cons, List.mem_append, not_or] at hx
      simp only [renameAllUnless_cons, evalFrom]
      intro w w' hw
      have hfirst := hs hy.1 (fun hd => (hx hd).1) hw
      refine hfirst.bind (fun {v u u'} hok hu => ?_) id
      have hkeeps := s.keeps_eval.of_eq_ok hok
      -- The rest is renamed as far as the variable is still in sight after the first statement.
      rw [← hkeeps.shadows_eq fun hmem => ⟨fun hd => (hx hd).1 hmem, owns_of_eval hok hmem⟩]
      exact ih hbody hy.2 (fun hd => (hx hd).2) v hu

theorem follows_eval {s : Statement} (hy : y ∉ s.vars) (hx : depth = 0 → x ∉ s.declared) :
    Follows x y depth s.eval fun shadowed => (s.renameUnless x y shadowed).eval := by
  induction s generalizing depth with
  | declare line z e =>
      rw [vars, List.mem_cons, not_or] at hy
      have hz : depth = 0 → z ≠ x := by
        rintro hd rfl
        exact hx hd (List.mem_singleton_self z)
      simp only [renameUnless_declare, eval]
      exact (e.follows_eval hy.2 depth).bind fun hu =>
        (agree_declare hu (Ne.symm hy.1) hz _ line).bind (fun _ hu => .ok hu) id
  | expression e =>
      simp only [renameUnless_expression, eval]
      exact (e.follows_eval hy depth).bind fun hu => .ok hu
  | block line body ih =>
      simp only [renameUnless_block, eval]
      intro w w' hw
      have hbody : Follows x y (depth + 1) (evalFrom none body) _ :=
        follows_evalFrom (fun s hs => ih s hs) hy (absurd · (Nat.succ_ne_zero depth)) none
      exact (hbody hw.push).inScope fun hu => hu.pop

theorem renameLocal_cons_of_not_mem {s : Statement} (h : x ∉ s.declared) (rest : List Statement) :
    renameLocal x y (s :: rest) = s :: renameLocal x y rest := by
  cases s with
  | expression e | block line body => rfl
  | declare line z e =>
      have hz : z ≠ x := fun hz => h (by simp [declared, hz])
      simp [renameLocal, hz]

end Statement

/-- Two worlds that differ in the innermost scope, and in what is noted of it. -/
structure World.SameOutside (w w' : World) : Prop where
  functions_eq : w'.context.functions = w.context.functions
  output_eq : w'.output = w.output
  outer_eq : w'.context.outer = w.context.outer

theorem World.Renamed.sameOutside {x y : String} {w w' : World} (h : w.Renamed x y 0 w') :
    w.SameOutside w' := by
  obtain ⟨⟨functions, top, outer⟩, output, trace⟩ := w
  obtain ⟨⟨functions', top', outer'⟩, output', trace'⟩ := w'
  obtain ⟨hfunctions, houtput, hscopes⟩ := h
  cases hscopes with
  | own _ _ _ => exact ⟨hfunctions, houtput, rfl⟩

theorem World.SameOutside.refl (w : World) : w.SameOutside w :=
  ⟨rfl, rfl, rfl⟩

/-- Nothing is left of the difference when the scope is closed. -/
theorem World.SameOutside.pop {w u u' : World} {declared : List String} (h : u.SameOutside u')
    (hk : w.push.context.Keeps declared u.context) :
    u'.pop.context = u.pop.context ∧ u'.pop.output = u.pop.output := by
  obtain ⟨⟨functions, top, outer⟩, output, trace⟩ := u
  obtain ⟨⟨functions', top', outer'⟩, output', trace'⟩ := u'
  obtain ⟨rfl, rfl, rfl⟩ := h
  cases outer' with
  | nil =>
      have hdepth := hk.depth_eq
      simp [Context.depth, Context.scopes, World.push, World.note, Context.push] at hdepth
  | cons scope outer => exact ⟨rfl, rfl⟩

/-- Declaring a variable under either name. -/
theorem Eval.agree_declare_new {x y : String} {w : World} (hx : w.context.owns 0 x = false)
    (hy : w.context.owns 0 y = false) (v : Value) (line : Nat) :
    Agree (World.Renamed x y 0) id (declare x v line w) (declare y v line w) := by
  have hscopes : Context.Renamed x y 0 (w.context.top.insert x v :: w.context.outer)
      (w.context.top.insert y v :: w.context.outer) := by
    refine .own (by simp [Bindings.contains]) (by simp) fun z hzx hzy => ?_
    rw [Bindings.get?_insert_of_ne _ _ hzy, Bindings.get?_insert_of_ne _ _ hzx]
  change w.context.top.contains x = false at hx
  change w.context.top.contains y = false at hy
  simp only [declare, Context.declare, hx, hy]
  exact .ok ⟨rfl, rfl, hscopes⟩

/-- Up to the declaration the two runs are one; from there on they differ in the name. -/
theorem Statement.agree_renameLocal {x y : String} {body : List Statement}
    (hx : (declaredAll body).count x = 1) (hy : y ∉ varsAll body) {w : World}
    (hwx : w.context.owns 0 x = false) (hwy : w.context.owns 0 y = false) (last : Option Value) :
    Agree World.SameOutside id (evalFrom last body w) (evalFrom last (renameLocal x y body) w) := by
  induction body generalizing w last with
  | nil => simp [declaredAll] at hx
  | cons s body ih =>
      rw [varsAll, List.mem_append, not_or] at hy
      rw [declaredAll, List.flatMap_cons, List.count_append] at hx
      by_cases hmem : x ∈ s.declared
      · cases s with
        | expression e | block line body => cases hmem
        | declare line z e =>
            obtain rfl := List.mem_singleton.1 hmem
            have hrest : x ∉ declaredAll body := by
              rw [← List.count_eq_zero]
              simpa [declared, declaredAll] using hx
            simp only [renameLocal, ↓reduceIte, evalFrom, eval, bind_assoc, pure_bind]
            refine (Agree.refl (e.eval w)).bind (fun {v u u'} hok hu => ?_) ?_
            · subst hu
              have hkeeps := e.keeps_eval.of_eq_ok hok
              refine (agree_declare_new (hkeeps.not_owns hwx (List.not_mem_nil))
                (hkeeps.not_owns hwy List.not_mem_nil) v line).bind (fun _ hu => ?_)
                World.Renamed.sameOutside
              exact (follows_evalFrom (fun s _ => follows_eval) hy.2 (fun _ => hrest) _ hu).mono
                World.Renamed.sameOutside
            · rintro u u' rfl
              exact .refl u
      · rw [renameLocal_cons_of_not_mem hmem, evalFrom, evalFrom]
        refine (Agree.refl (s.eval w)).bind (fun {v u u'} hok hu => ?_) ?_
        · subst hu
          have hkeeps := s.keeps_eval.of_eq_ok hok
          rw [List.count_eq_zero.2 hmem, Nat.zero_add] at hx
          exact ih hx hy.2 (hkeeps.not_owns hwx hmem)
            (hkeeps.not_owns hwy fun h => hy.1 (s.declared_subset_vars h)) v
        · rintro u u' rfl
          exact .refl u

/-- A block does the same, whatever it calls its variables: with another name for one of them that
is used nowhere else in it, it gives the same value or error, prints the same and leaves the same
context. -/
theorem Block.evalScoped_rename {b : Block} {x y : String} (hx : b.declared.count x = 1)
    (hy : y ∉ b.vars) (c : Context) :
    let r := Run.ofEval c b.evalScoped
    let r' := Run.ofEval c (b.rename x y).evalScoped
    r'.result = r.result ∧ r'.world.output = r.world.output ∧ r'.world.context = r.world.context := by
  have hkeeps : Keeps b.declared b.evalProgram :=
    Statement.keeps_evalFrom (fun s _ => s.keeps_eval) none
  have hbody : Agree World.SameOutside id (b.evalProgram (World.start c).push)
      ((b.rename x y).evalProgram (World.start c).push) :=
    Statement.agree_renameLocal hx hy rfl rfl none
  have hagree : Agree (fun u u' => u'.context = u.context ∧ u'.output = u.output) id
      (inScope b.evalProgram (.start c)) (inScope (b.rename x y).evalProgram (.start c)) :=
    (hbody.and_keeps hkeeps).inScope fun ⟨hu, hk⟩ => hu.pop hk
  simp only [Run.ofEval, Block.evalScoped]
  generalize inScope b.evalProgram (World.start c) = r at hagree
  generalize inScope (b.rename x y).evalProgram (World.start c) = r' at hagree
  cases hagree with
  | ok hu => exact ⟨rfl, hu.2, hu.1⟩
  | error hu => exact ⟨rfl, hu.2, hu.1⟩

/-- The name is first that of a variable outside, then that of the block's own, which is also seen from
an inner block up to the declaration there; and all along that of a function. -/
theorem Block.evalScoped_rename_shadowed :
    let b : Block :=
      { line := 1
        statements := [.expression (.assign 1 "x" (.not 1 (.name 1 "x"))), .declare 2 "x" (.name 2 "x"),
          .block 3 [.expression (.assign 3 "x" (.not 3 (.name 3 "x"))), .declare 4 "x" (.name 4 "x"),
            .expression (.name 5 "x")],
          .expression (.call 6 "x" [.name 6 "x"])] }
    let b' : Block :=
      { line := 1
        statements := [.expression (.assign 1 "x" (.not 1 (.name 1 "x"))), .declare 2 "y" (.name 2 "x"),
          .block 3 [.expression (.assign 3 "y" (.not 3 (.name 3 "y"))), .declare 4 "x" (.name 4 "y"),
            .expression (.name 5 "x")],
          .expression (.call 6 "x" [.name 6 "y"])] }
    let c : Context := { Context.empty with top := Bindings.empty.insert "x" (.bool true) }
    b.declared.count "x" = 1 ∧ "y" ∉ b.vars ∧ b.rename "x" "y" = b' ∧
      (Run.ofEval c b'.evalScoped).world.context = (Run.ofEval c b.evalScoped).world.context := by
  intro b b' c
  have hx : b.declared.count "x" = 1 := by decide
  have hy : "y" ∉ b.vars := by decide
  have hrename : b.rename "x" "y" = b' := rfl
  refine ⟨hx, hy, hrename, ?_⟩
  rw [← hrename]
  exact (evalScoped_rename hx hy c).2.2

end Abacus
