import Abacus.Proofs.Syntax.Spelling

/-!
Renumbering the lines of tokens and trees. A tree with renumbered lines is spelled by the renumbered
tokens, and nothing else about it that reading depends on changes.
-/
namespace Abacus

def Token.mapLine (r : Nat → Nat) (t : Token) : Token :=
  ⟨t.kind, r t.line⟩

def Slot.mapLine (r : Nat → Nat) : Slot → Slot
  | placed kind line => placed kind (r line)
  | anywhere kind => anywhere kind
  | number value line => number value (r line)

namespace Expr

mutual

def mapLines (r : Nat → Nat) : Expr → Expr
  | number line value => number (r line) value
  | name line x => name (r line) x
  | negate line e => negate (r line) (e.mapLines r)
  | not line e => not (r line) (e.mapLines r)
  | group e => group (e.mapLines r)
  | call line f arguments => call (r line) f (mapLinesAll r arguments)
  | binary line op left right => binary (r line) op (left.mapLines r) (right.mapLines r)
  | assign line x e => assign (r line) x (e.mapLines r)

def mapLinesAll (r : Nat → Nat) : List Expr → List Expr
  | [] => []
  | e :: es => e.mapLines r :: mapLinesAll r es

end

end Expr

namespace Statement

mutual

def mapLines (r : Nat → Nat) : Statement → Statement
  | declare line x e => declare (r line) x (e.mapLines r)
  | expression e => expression (e.mapLines r)
  | block line body => block (r line) (mapLinesAll r body)

def mapLinesAll (r : Nat → Nat) : List Statement → List Statement
  | [] => []
  | s :: rest => s.mapLines r :: mapLinesAll r rest

end

end Statement

section Spelling

variable (r : Nat → Nat) {slots : List Slot}

theorem Spells.mapLines {ts rest : List Token} (h : Spells slots ts rest) :
    Spells (slots.map (·.mapLine r)) (ts.map (·.mapLine r)) (rest.map (·.mapLine r)) := by
  induction h with
  | nil => exact .nil
  | @cons slot _ _ _ _ ht _ ih =>
      refine .cons ?_ ih
      cases slot with
      | placed _ _ | number _ _ => exact ⟨ht.1, congrArg r ht.2⟩
      | anywhere _ => exact ht

@[simp] theorem Slot.kind?_mapLine (slot : Slot) : (slot.mapLine r).kind? = slot.kind? := by
  cases slot <;> rfl

@[simp] theorem Slot.isName_mapLine (slot : Slot) : (slot.mapLine r).isName = slot.isName := by
  simp [isName]

@[simp] theorem startsWith_map (kind : Token.Kind) :
    startsWith kind (slots.map (·.mapLine r)) = startsWith kind slots := by
  cases slots <;> simp [startsWith]

@[simp] theorem endsInName_map : endsInName (slots.map (·.mapLine r)) = endsInName slots := by
  simp only [endsInName, List.getLast?_map]
  cases slots.getLast? <;> simp

end Spelling

namespace Expr

variable (r : Nat → Nat)

theorem yieldArguments_mapLinesAll {es : List Expr}
    (h : ∀ e ∈ es, (e.mapLines r).yield = e.yield.map (·.mapLine r)) :
    yieldArguments (mapLinesAll r es) = (yieldArguments es).map (·.mapLine r) := by
  induction es with
  | nil => rfl
  | cons e es ih =>
      have he := h e (List.mem_cons_self ..)
      cases es with
      | nil => exact he
      | cons e' es =>
          have hes := ih fun a ha => h a (List.mem_cons_of_mem _ ha)
          simp only [mapLinesAll] at hes
          simp only [mapLinesAll, yieldArguments, he, hes, List.map_append, List.map_cons]
          rfl

@[simp] theorem yield_mapLines (e : Expr) :
    (e.mapLines r).yield = e.yield.map (·.mapLine r) := by
  induction e with
  | number _ _ | name _ _ => rfl
  | negate _ e ih | not _ e ih | group e ih | assign _ _ e ih =>
      simp [mapLines, yield, ih, Slot.mapLine]
  | call _ _ as ih => simp [mapLines, yield, yieldArguments_mapLinesAll r ih, Slot.mapLine]
  | binary _ _ l r ihl ihr => simp [mapLines, yield, ihl, ihr, Slot.mapLine]

@[simp] theorem nest_mapLines (e : Expr) : (e.mapLines r).nest = e.nest := by
  induction e with
  | number _ _ | name _ _ => rfl
  | negate _ e ih | not _ e ih | group e ih | assign _ _ e ih => simp [mapLines, nest, ih]
  | call _ _ as ih =>
      have hargs : nestAll (mapLinesAll r as) = nestAll as := by
        induction as with
        | nil => rfl
        | cons a as ihs => simp_all [mapLinesAll, nestAll]
      simp [mapLines, nest, hargs]
  | binary _ _ l r ihl ihr => simp [mapLines, nest, ihl, ihr]

@[simp] theorem tightness_mapLines (e : Expr) : (e.mapLines r).tightness = e.tightness := by
  cases e <;> rfl

@[simp] theorem layered_mapLines (e : Expr) : (e.mapLines r).Layered ↔ e.Layered := by
  induction e with
  | number _ _ | name _ _ => rfl
  | negate _ e ih | not _ e ih | group e ih | assign _ _ e ih => simp [mapLines, Layered, ih]
  | call _ _ as ih =>
      have hargs : LayeredAll (mapLinesAll r as) ↔ LayeredAll as := by
        induction as with
        | nil => rfl
        | cons a as ihs => simp_all [mapLinesAll, LayeredAll]
      simp [mapLines, Layered, hargs]
  | binary _ _ l r ihl ihr => simp [mapLines, Layered, ihl, ihr]

theorem mapLines_id (e : Expr) : e.mapLines id = e := by
  induction e with
  | number _ _ | name _ _ => rfl
  | negate _ e ih | not _ e ih | group e ih | assign _ _ e ih => simp [mapLines, ih]
  | call _ _ as ih =>
      have hargs : mapLinesAll id as = as := by
        induction as with
        | nil => rfl
        | cons a as ihs => simp_all [mapLinesAll]
      simp [mapLines, hargs]
  | binary _ _ l r ihl ihr => simp [mapLines, ihl, ihr]

end Expr

namespace Statement

mutual

theorem yield_mapLines (r : Nat → Nat) : (s : Statement) →
    (s.mapLines r).yield = s.yield.map (·.mapLine r)
  | .declare _ _ e => by simp [mapLines, yield, Slot.mapLine]
  | .expression e => e.yield_mapLines r
  | .block _ body => by simp [mapLines, yield, yieldAll_mapLines r body, Slot.mapLine]

theorem yieldAll_mapLines (r : Nat → Nat) : (body : List Statement) →
    yieldAll (mapLinesAll r body) = (yieldAll body).map (·.mapLine r)
  | [] => rfl
  | s :: rest => by simp [mapLinesAll, yieldAll, yield_mapLines r s, yieldAll_mapLines r rest]

end

mutual

theorem nest_mapLines (r : Nat → Nat) : (s : Statement) → (s.mapLines r).nest = s.nest
  | .declare _ _ e | .expression e => e.nest_mapLines r
  | .block _ body => by simp [mapLines, nest, nestAll_mapLines r body]

theorem nestAll_mapLines (r : Nat → Nat) : (body : List Statement) →
    nestAll (mapLinesAll r body) = nestAll body
  | [] => rfl
  | s :: rest => by simp [mapLinesAll, nestAll, nest_mapLines r s, nestAll_mapLines r rest]

end

mutual

theorem layered_mapLines (r : Nat → Nat) : (s : Statement) →
    ((s.mapLines r).Layered ↔ s.Layered)
  | .declare _ _ e | .expression e => e.layered_mapLines r
  | .block _ body => layeredAll_mapLines r body

theorem layeredAll_mapLines (r : Nat → Nat) : (body : List Statement) →
    (LayeredAll (mapLinesAll r body) ↔ LayeredAll body)
  | [] => .rfl
  | s :: rest => and_congr (layered_mapLines r s) (layeredAll_mapLines r rest)

end

theorem isBlock_mapLines (r : Nat → Nat) (s : Statement) :
    (s.mapLines r).isBlock = s.isBlock := by
  cases s <;> rfl

theorem standsApart_mapLines (r r' : Nat → Nat) (s t : Statement) :
    (s.mapLines r).StandsApart (t.mapLines r') ↔ s.StandsApart t := by
  simp [StandsApart, yield_mapLines, isBlock_mapLines]

theorem head?_mapLinesAll (r : Nat → Nat) (body : List Statement) :
    (mapLinesAll r body).head? = body.head?.map (·.mapLines r) := by
  cases body <;> rfl

mutual

theorem separated_mapLines (r : Nat → Nat) : (s : Statement) →
    ((s.mapLines r).Separated ↔ s.Separated)
  | .declare _ _ _ | .expression _ => .rfl
  | .block _ body => separatedAll_mapLines r body

theorem separatedAll_mapLines (r : Nat → Nat) : (body : List Statement) →
    (SeparatedAll (mapLinesAll r body) ↔ SeparatedAll body)
  | [] => .rfl
  | s :: rest => by
      simp [mapLinesAll, SeparatedAll, separated_mapLines r s, separatedAll_mapLines r rest,
        head?_mapLinesAll, standsApart_mapLines]

end

mutual

theorem mapLines_id : (s : Statement) → s.mapLines id = s
  | .declare _ _ e => by simp [mapLines, e.mapLines_id]
  | .expression e => by simp [mapLines, e.mapLines_id]
  | .block _ body => by simp [mapLines, mapLinesAll_id body]

theorem mapLinesAll_id : (body : List Statement) → mapLinesAll id body = body
  | [] => rfl
  | s :: rest => by simp [mapLinesAll, mapLines_id s, mapLinesAll_id rest]

end

end Statement

end Abacus
