import Abacus.Syntax

/-!
The names of a syntax tree: its variables, which are read, assigned or declared in it, and the
functions that it calls. The two have nothing to do with each other.
-/
namespace Abacus

namespace Expr

mutual

/-- The variables that an expression reads or assigns. -/
def vars : Expr → List String
  | number _ _ => []
  | name _ x => [x]
  | negate _ e | not _ e | group e => e.vars
  | call _ _ arguments => varsAll arguments
  | binary _ _ left right => left.vars ++ right.vars
  | assign _ x e => x :: e.vars

def varsAll : List Expr → List String
  | [] => []
  | e :: es => e.vars ++ varsAll es

end

mutual

/-- The functions that an expression calls. -/
def callees : Expr → List String
  | number _ _ | name _ _ => []
  | negate _ e | not _ e | group e | assign _ _ e => e.callees
  | call _ f arguments => f :: calleesAll arguments
  | binary _ _ left right => left.callees ++ right.callees

def calleesAll : List Expr → List String
  | [] => []
  | e :: es => e.callees ++ calleesAll es

end

mutual

/-- The same expression with other variables. -/
def mapNames (ρ : String → String) : Expr → Expr
  | number line value => number line value
  | name line x => name line (ρ x)
  | negate line e => negate line (e.mapNames ρ)
  | not line e => not line (e.mapNames ρ)
  | group e => group (e.mapNames ρ)
  | call line f arguments => call line f (mapNamesAll ρ arguments)
  | binary line op left right => binary line op (left.mapNames ρ) (right.mapNames ρ)
  | assign line x e => assign line (ρ x) (e.mapNames ρ)

def mapNamesAll (ρ : String → String) : List Expr → List Expr
  | [] => []
  | e :: es => e.mapNames ρ :: mapNamesAll ρ es

end

theorem mapNames_id (e : Expr) : e.mapNames id = e := by
  induction e with
  | number _ _ | name _ _ => rfl
  | negate _ e ih | not _ e ih | group e ih | assign _ _ e ih => simp only [mapNames, ih, id]
  | binary _ _ l r ihl ihr => simp only [mapNames, ihl, ihr]
  | call _ _ es ih =>
      have hall : mapNamesAll id es = es := by
        induction es with
        | nil => rfl
        | cons e es ihs =>
            obtain ⟨he, hes⟩ := List.forall_mem_cons.1 ih
            rw [mapNamesAll, he, ihs hes]
      rw [mapNames, hall]

end Expr

namespace Statement

mutual

/-- The variables of a statement, those of inner blocks included. -/
def vars : Statement → List String
  | declare _ x e => x :: e.vars
  | expression e => e.vars
  | block _ body => varsAll body

def varsAll : List Statement → List String
  | [] => []
  | s :: rest => s.vars ++ varsAll rest

end

mutual

/-- The functions that a statement calls, those of inner blocks included. -/
def callees : Statement → List String
  | declare _ _ e | expression e => e.callees
  | block _ body => calleesAll body

def calleesAll : List Statement → List String
  | [] => []
  | s :: rest => s.callees ++ calleesAll rest

end

/-- The names that a statement declares in the scope that it runs in. -/
def declared : Statement → List String
  | declare _ x _ => [x]
  | expression _ | block _ _ => []

/-- The names that some statements declare in the scope that they run in, inner blocks left out. -/
def declaredAll (body : List Statement) : List String :=
  body.flatMap declared

theorem declared_subset_vars (s : Statement) : s.declared ⊆ s.vars := by
  cases s with
  | declare line x e => exact List.cons_subset_cons x (List.nil_subset _)
  | expression e | block line body => exact List.nil_subset _

end Statement

namespace Block

def vars (b : Block) : List String :=
  Statement.varsAll b.statements

def callees (b : Block) : List String :=
  Statement.calleesAll b.statements

def declared (b : Block) : List String :=
  Statement.declaredAll b.statements

end Block

end Abacus
