import Abacus.Syntax

/-!
The spelling of syntax trees. A tree fixes the tokens it is written with: their kinds in order, and
the lines of those that stand for a node. It leaves open the lines of the other tokens, and whether a
number is a whole or a fractional literal. Beside the spelling stand the two measures that reading
depends on: how tightly an expression binds, and how many levels of nesting it opens.
-/
namespace Abacus

/-- What a tree fixes of one token of its spelling. -/
inductive Slot where
  /-- A token that stands for a node, on the line of the node. -/
  | placed (kind : Token.Kind) (line : Nat)
  /-- A token on any line. -/
  | anywhere (kind : Token.Kind)
  /-- A number literal, whole or fractional. -/
  | number (value : Float) (line : Nat)
deriving DecidableEq

namespace Slot

def Fits (t : Token) : Slot → Prop
  | placed kind line => t.kind = kind ∧ t.line = line
  | anywhere kind => t.kind = kind
  | number value line => (t.kind = .integer value ∨ t.kind = .float value) ∧ t.line = line

/-- The kind of token that a slot asks for, unless it asks for a number. -/
def kind? : Slot → Option Token.Kind
  | placed kind _ | anywhere kind => some kind
  | number _ _ => none

def isName (slot : Slot) : Bool :=
  match slot.kind? with
  | some (.identifier _) => true
  | _ => false

end Slot

/-- Whether a spelling starts with a token of the given kind. -/
def startsWith (kind : Token.Kind) (slots : List Slot) : Bool :=
  slots.head?.any (·.kind? = some kind)

/-- Whether a spelling ends with a name. -/
def endsInName (slots : List Slot) : Bool :=
  slots.getLast?.any Slot.isName

/-- `Spells slots ts rest`: the list `ts` starts with tokens for `slots`, and `rest` follows. -/
inductive Spells : List Slot → List Token → List Token → Prop where
  | nil {rest : List Token} : Spells [] rest rest
  | cons {slot : Slot} {slots : List Slot} {t : Token} {ts rest : List Token} :
      slot.Fits t → Spells slots ts rest → Spells (slot :: slots) (t :: ts) rest

namespace Expr

mutual

/-- The spelling of an expression. -/
def yield : Expr → List Slot
  | number line value => [.number value line]
  | name line x => [.placed (.identifier x) line]
  | negate line operand => .placed .minus line :: operand.yield
  | not line operand => .placed .bang line :: operand.yield
  | group inner => .anywhere .leftParen :: (inner.yield ++ [.anywhere .rightParen])
  | call line f arguments =>
    .placed (.identifier f) line :: .anywhere .leftParen ::
      (yieldArguments arguments ++ [.anywhere .rightParen])
  | binary line op left right => left.yield ++ .placed op.kind line :: right.yield
  | assign line x value => .placed (.identifier x) line :: .anywhere .assign :: value.yield

/-- The spelling of arguments, with commas between them. -/
def yieldArguments : List Expr → List Slot
  | [] => []
  | [e] => e.yield
  | e :: es => e.yield ++ .anywhere .comma :: yieldArguments es

end

mutual

/-- The largest number of levels that an expression opens one inside the other. -/
def nest : Expr → Nat
  | number _ _ | name _ _ => 0
  | negate _ e | not _ e | group e | assign _ _ e => e.nest + 1
  | call _ _ arguments => nestAll arguments + 1
  | binary _ _ left right => max left.nest right.nest

def nestAll : List Expr → Nat
  | [] => 0
  | e :: es => max e.nest (nestAll es)

end

end Expr

/-- The levels in order, the loosest first. -/
def Level.rank : Level → Nat
  | logical => 1
  | comparison => 2
  | additive => 3
  | multiplicative => 4

namespace Expr

/-- How tightly the outermost part of an expression binds: an assignment least, an operator by its
level, everything else most. -/
def tightness : Expr → Nat
  | assign _ _ _ => 0
  | binary _ op _ _ => op.level.rank
  | _ => 5

mutual

/-- The expressions of the grammar. An operand that binds no tighter than its operator stands in
parentheses, except on the left of an operator of its own level, as operators of one level associate
to the left. -/
def Layered : Expr → Prop
  | number _ _ | name _ _ => True
  | negate _ e | not _ e => e.Layered ∧ 5 ≤ e.tightness
  | group e | assign _ _ e => e.Layered
  | call _ _ arguments => LayeredAll arguments
  | binary _ op left right =>
    left.Layered ∧ right.Layered ∧ op.level.rank ≤ left.tightness ∧
      op.level.rank < right.tightness

def LayeredAll : List Expr → Prop
  | [] => True
  | e :: es => e.Layered ∧ LayeredAll es

end

end Expr

namespace Statement

mutual

/-- The spelling of a statement. -/
def yield : Statement → List Slot
  | declare line x initializer =>
    .placed (.keyword .var) line :: .anywhere (.identifier x) :: .anywhere .assign ::
      initializer.yield
  | expression value => value.yield
  | block line body => .placed .leftBrace line :: (yieldAll body ++ [.anywhere .rightBrace])

/-- The spelling of statements one after the other. -/
def yieldAll : List Statement → List Slot
  | [] => []
  | s :: rest => s.yield ++ yieldAll rest

end

mutual

def nest : Statement → Nat
  | declare _ _ e | expression e => e.nest
  | block _ body => nestAll body + 1

def nestAll : List Statement → Nat
  | [] => 0
  | s :: rest => max s.nest (nestAll rest)

end

mutual

def Layered : Statement → Prop
  | declare _ _ e | expression e => e.Layered
  | block _ body => LayeredAll body

def LayeredAll : List Statement → Prop
  | [] => True
  | s :: rest => s.Layered ∧ LayeredAll rest

end

def isBlock : Statement → Bool
  | block _ _ => true
  | _ => false

/-- Whether a statement can stand right behind another and be told from it: no separator shows where
an expression ends, so a minus sign goes on with it, and a parenthesis goes on with a name. -/
def StandsApart (s t : Statement) : Prop :=
  (startsWith .minus t.yield → s.isBlock) ∧
    (startsWith .leftParen t.yield → ¬ endsInName s.yield)

mutual

/-- Neighbours can be told from each other in all lists of statements inside a statement. -/
def Separated : Statement → Prop
  | declare _ _ _ | expression _ => True
  | block _ body => SeparatedAll body

def SeparatedAll : List Statement → Prop
  | [] => True
  | s :: rest => s.Separated ∧ (∀ t ∈ rest.head?, s.StandsApart t) ∧ SeparatedAll rest

end

end Statement

namespace Block

def yield (b : Block) : List Slot :=
  Statement.yieldAll b.statements

def nest (b : Block) : Nat :=
  Statement.nestAll b.statements

def Layered (b : Block) : Prop :=
  Statement.LayeredAll b.statements

/-- The programs that can be read back from their spelling. -/
structure Canonical (b : Block) : Prop where
  nest_le : b.nest ≤ 128
  separated : Statement.SeparatedAll b.statements

/-- A token list spells a program: its tokens, then at most an `eof`. The program starts on the line
of the first token. -/
structure SpelledBy (b : Block) (ts : List Token) : Prop where
  spells : ∃ tail, Spells b.yield ts tail ∧ (tail = [] ∨ ∃ line, tail = [⟨.eof, line⟩])
  line_eq : b.line = (ts.head?.map Token.line).getD 1

end Block
section Spelling

variable {slots : List Slot} {ts rest : List Token}

theorem spells_nil_iff : Spells [] ts rest ↔ ts = rest := by
  constructor
  · rintro ⟨⟩
    rfl
  · rintro rfl
    exact .nil

theorem spells_cons_iff {slot : Slot} :
    Spells (slot :: slots) ts rest ↔ ∃ t mid, ts = t :: mid ∧ slot.Fits t ∧ Spells slots mid rest := by
  constructor
  · rintro ⟨⟩
    exact ⟨_, _, rfl, ‹_›, ‹_›⟩
  · rintro ⟨t, mid, rfl, ht, hs⟩
    exact .cons ht hs

theorem spells_cons_cons_iff {slot : Slot} {t : Token} :
    Spells (slot :: slots) (t :: ts) rest ↔ slot.Fits t ∧ Spells slots ts rest := by
  constructor
  · rintro ⟨⟩
    exact ⟨‹_›, ‹_›⟩
  · rintro ⟨ht, hs⟩
    exact .cons ht hs

theorem Spells.append {more : List Slot} {mid : List Token} (h : Spells slots ts mid)
    (h' : Spells more mid rest) : Spells (slots ++ more) ts rest := by
  induction h with
  | nil => exact h'
  | cons ht _ ih => exact .cons ht (ih h')

theorem spells_append_iff {more : List Slot} :
    Spells (slots ++ more) ts rest ↔ ∃ mid, Spells slots ts mid ∧ Spells more mid rest := by
  refine ⟨fun h => ?_, fun ⟨mid, h, h'⟩ => h.append h'⟩
  induction slots generalizing ts with
  | nil => exact ⟨ts, .nil, h⟩
  | cons slot slots ih =>
      obtain ⟨t, ts', rfl, ht, hs⟩ := spells_cons_iff.1 h
      obtain ⟨mid, h₁, h₂⟩ := ih hs
      exact ⟨mid, .cons ht h₁, h₂⟩

/-- What follows a spelling has no part in it. -/
theorem spells_iff : Spells slots ts rest ↔ ∃ used, ts = used ++ rest ∧ Spells slots used [] := by
  constructor
  · intro h
    induction h with
    | nil => exact ⟨[], rfl, .nil⟩
    | cons ht _ ih =>
        obtain ⟨used, rfl, hused⟩ := ih
        exact ⟨_ :: used, rfl, .cons ht hused⟩
  · rintro ⟨used, rfl, hused⟩
    induction slots generalizing used with
    | nil =>
        obtain rfl := spells_nil_iff.1 hused
        exact .nil
    | cons slot slots ih =>
        obtain ⟨t, used, rfl, ht, hs⟩ := spells_cons_iff.1 hused
        exact .cons ht (ih used hs)

theorem Spells.kind_eq {kind : Token.Kind} {t : Token} (h : Spells slots (t :: ts) rest)
    (hk : startsWith kind slots) : t.kind = kind := by
  cases h with
  | nil => cases hk
  | @cons slot _ _ _ _ ht _ =>
      cases slot with
      | placed _ _ => exact ht.1.trans (by simpa [startsWith, Slot.kind?] using hk)
      | anywhere _ => exact ht.trans (by simpa [startsWith, Slot.kind?] using hk)
      | number _ _ => simp [startsWith, Slot.kind?] at hk

/-- A number literal may have two kinds, so a spelling that starts with one fixes neither. -/
theorem Spells.startsWith_of_kind {t : Token} (h : Spells slots (t :: ts) rest) (hs : slots ≠ [])
    (hi : ∀ value, t.kind ≠ .integer value) (hf : ∀ value, t.kind ≠ .float value) :
    startsWith t.kind slots := by
  cases h with
  | nil => cases hs rfl
  | @cons slot _ _ _ _ ht _ =>
      cases slot with
      | placed _ _ => simp [startsWith, Slot.kind?, ht.1]
      | anywhere _ =>
          change t.kind = _ at ht
          simp [startsWith, Slot.kind?, ht]
      | number value _ =>
          obtain ⟨hk | hk, _⟩ := ht
          · exact absurd hk (hi value)
          · exact absurd hk (hf value)

theorem endsInName_append_cons (slots more : List Slot) {slot : Slot} (h : slot.isName = false) :
    endsInName (slots ++ slot :: more) = endsInName more := by
  simp only [endsInName, List.getLast?_append, List.getLast?_cons]
  cases more.getLast? <;> simp [h]

end Spelling

/-! Where a spelling ends is decided by the part that is spelled last. -/

@[simp] theorem Expr.endsInName_negate (line : Nat) (e : Expr) :
    endsInName (negate line e).yield = endsInName e.yield :=
  endsInName_append_cons [] _ rfl

@[simp] theorem Expr.endsInName_not (line : Nat) (e : Expr) :
    endsInName (not line e).yield = endsInName e.yield :=
  endsInName_append_cons [] _ rfl

@[simp] theorem Expr.endsInName_group (e : Expr) : endsInName (group e).yield = false :=
  endsInName_append_cons (_ :: e.yield) [] rfl

@[simp] theorem Expr.endsInName_call (line : Nat) (f : String) (as : List Expr) :
    endsInName (call line f as).yield = false :=
  endsInName_append_cons (_ :: _ :: yieldArguments as) [] rfl

@[simp] theorem Expr.endsInName_binary (line : Nat) (op : BinOp) (l r : Expr) :
    endsInName (binary line op l r).yield = endsInName r.yield :=
  endsInName_append_cons l.yield _ (by cases op <;> rfl)

@[simp] theorem Expr.endsInName_assign (line : Nat) (x : String) (e : Expr) :
    endsInName (assign line x e).yield = endsInName e.yield :=
  endsInName_append_cons [_] _ rfl

@[simp] theorem Statement.endsInName_declare (line : Nat) (x : String) (e : Expr) :
    endsInName (declare line x e).yield = endsInName e.yield :=
  endsInName_append_cons [_, _] _ rfl

@[simp] theorem Statement.endsInName_block (line : Nat) (body : List Statement) :
    endsInName (block line body).yield = false :=
  endsInName_append_cons (_ :: yieldAll body) [] rfl

/-- The kinds of token that an expression can start with. -/
def Token.Kind.startsExpr : Token.Kind → Bool
  | .integer _ | .float _ | .identifier _ | .minus | .bang | .leftParen => true
  | _ => false

/-- The kinds of token that a statement can start with. -/
def Token.Kind.startsStatement : Token.Kind → Bool
  | .keyword .var | .leftBrace => true
  | kind => kind.startsExpr

theorem Expr.starts_of_spells {e : Expr} {ts rest : List Token} (h : Spells e.yield ts rest) :
    ∃ t mid, ts = t :: mid ∧ t.kind.startsExpr := by
  induction e generalizing ts rest with
  | number line value =>
      obtain ⟨t, mid, rfl, ⟨hk | hk, _⟩, _⟩ := spells_cons_iff.1 h
      all_goals exact ⟨t, mid, rfl, by rw [hk]; rfl⟩
  | name line x =>
      obtain ⟨t, mid, rfl, ⟨hk, _⟩, _⟩ := spells_cons_iff.1 h
      exact ⟨t, mid, rfl, by rw [hk]; rfl⟩
  | negate line e _ | not line e _ | call line f as _ | assign line x e _ =>
      obtain ⟨t, mid, rfl, ⟨hk, _⟩, _⟩ := spells_cons_iff.1 h
      exact ⟨t, mid, rfl, by rw [hk]; rfl⟩
  | group e _ =>
      obtain ⟨t, mid, rfl, hk, _⟩ := spells_cons_iff.1 h
      exact ⟨t, mid, rfl, by rw [hk]; rfl⟩
  | binary line op l r ihl _ =>
      obtain ⟨mid, hl, _⟩ := spells_append_iff.1 h
      exact ihl hl

theorem Statement.starts_of_spells {s : Statement} {ts rest : List Token}
    (h : Spells s.yield ts rest) : ∃ t mid, ts = t :: mid ∧ t.kind.startsStatement := by
  cases s with
  | declare line x e | block line body =>
      obtain ⟨t, mid, rfl, ⟨hk, _⟩, _⟩ := spells_cons_iff.1 h
      exact ⟨t, mid, rfl, by rw [hk]; rfl⟩
  | expression e =>
      obtain ⟨t, mid, rfl, ht⟩ := Expr.starts_of_spells h
      refine ⟨t, mid, rfl, ?_⟩
      cases hk : t.kind <;> simp_all [Token.Kind.startsExpr, Token.Kind.startsStatement]

theorem Statement.yield_ne_nil (s : Statement) : s.yield ≠ [] := by
  intro h
  have hs : Spells s.yield [] [] := by
    rw [h]
    exact .nil
  obtain ⟨_, _, he, _⟩ := starts_of_spells hs
  cases he

/-- The kinds of token that an expression can end with. -/
def Token.Kind.endsExpr : Token.Kind → Bool
  | .integer _ | .float _ | .identifier _ | .rightParen => true
  | _ => false

theorem Expr.ends_of_spells {e : Expr} {ts rest : List Token} (h : Spells e.yield ts rest) :
    ∃ init t, ts = init ++ t :: rest ∧ t.kind.endsExpr ∧
      (endsInName e.yield → ∃ x, t.kind = .identifier x) := by
  induction e generalizing ts rest with
  | number line value =>
      obtain ⟨t, mid, rfl, ⟨hk | hk, _⟩, hrest⟩ := spells_cons_iff.1 h
      all_goals
        obtain rfl := spells_nil_iff.1 hrest
        exact ⟨[], t, rfl, by rw [hk]; rfl, nofun⟩
  | name line x =>
      obtain ⟨t, mid, rfl, ⟨hk, _⟩, hrest⟩ := spells_cons_iff.1 h
      obtain rfl := spells_nil_iff.1 hrest
      exact ⟨[], t, rfl, by rw [hk]; rfl, fun _ => ⟨x, hk⟩⟩
  | negate line e ih | not line e ih =>
      obtain ⟨u, mid, rfl, _, hrest⟩ := spells_cons_iff.1 h
      obtain ⟨init, t, rfl, ht, hn⟩ := ih hrest
      exact ⟨u :: init, t, rfl, ht, by simpa using hn⟩
  | group e ih =>
      obtain ⟨u, mid, rfl, _, hrest⟩ := spells_cons_iff.1 h
      obtain ⟨mid, he, hclose⟩ := spells_append_iff.1 hrest
      obtain ⟨init, rfl, _⟩ := spells_iff.1 he
      obtain ⟨t, mid, rfl, hk, hrest⟩ := spells_cons_iff.1 hclose
      obtain rfl := spells_nil_iff.1 hrest
      exact ⟨u :: init, t, rfl, by rw [hk]; rfl, by simp⟩
  | call line f as _ =>
      obtain ⟨u, mid, rfl, _, hrest⟩ := spells_cons_iff.1 h
      obtain ⟨v, mid, rfl, _, hrest⟩ := spells_cons_iff.1 hrest
      obtain ⟨mid, he, hclose⟩ := spells_append_iff.1 hrest
      obtain ⟨init, rfl, _⟩ := spells_iff.1 he
      obtain ⟨t, mid, rfl, hk, hrest⟩ := spells_cons_iff.1 hclose
      obtain rfl := spells_nil_iff.1 hrest
      exact ⟨u :: v :: init, t, rfl, by rw [hk]; rfl, by simp⟩
  | binary line op l r _ ihr =>
      obtain ⟨mid, hl, hrest⟩ := spells_append_iff.1 h
      obtain ⟨left, rfl, _⟩ := spells_iff.1 hl
      obtain ⟨u, mid, rfl, _, hr⟩ := spells_cons_iff.1 hrest
      obtain ⟨init, t, rfl, ht, hn⟩ := ihr hr
      exact ⟨left ++ u :: init, t, by simp, ht, by simpa using hn⟩
  | assign line x e ih =>
      obtain ⟨u, mid, rfl, _, hrest⟩ := spells_cons_iff.1 h
      obtain ⟨v, mid, rfl, _, hrest⟩ := spells_cons_iff.1 hrest
      obtain ⟨init, t, rfl, ht, hn⟩ := ih hrest
      exact ⟨u :: v :: init, t, rfl, ht, by simpa using hn⟩

/-- A statement ends like an expression, or with the brace that closes a block. -/
theorem Statement.ends_of_spells {s : Statement} {ts rest : List Token}
    (h : Spells s.yield ts rest) :
    ∃ init t, ts = init ++ t :: rest ∧ (t.kind.endsExpr ∨ s.isBlock ∧ t.kind = .rightBrace) ∧
      (endsInName s.yield → ∃ x, t.kind = .identifier x) := by
  cases s with
  | declare line x e =>
      obtain ⟨u, mid, rfl, _, hrest⟩ := spells_cons_iff.1 h
      obtain ⟨v, mid, rfl, _, hrest⟩ := spells_cons_iff.1 hrest
      obtain ⟨w, mid, rfl, _, hrest⟩ := spells_cons_iff.1 hrest
      obtain ⟨init, t, rfl, ht, hn⟩ := Expr.ends_of_spells hrest
      exact ⟨u :: v :: w :: init, t, rfl, .inl ht, by simpa using hn⟩
  | expression e =>
      obtain ⟨init, t, rfl, ht, hn⟩ := Expr.ends_of_spells h
      exact ⟨init, t, rfl, .inl ht, hn⟩
  | block line body =>
      obtain ⟨u, mid, rfl, _, hrest⟩ := spells_cons_iff.1 h
      obtain ⟨mid, he, hclose⟩ := spells_append_iff.1 hrest
      obtain ⟨init, rfl, _⟩ := spells_iff.1 he
      obtain ⟨t, mid, rfl, hk, hrest⟩ := spells_cons_iff.1 hclose
      obtain rfl := spells_nil_iff.1 hrest
      exact ⟨u :: init, t, rfl, .inr ⟨rfl, hk⟩, by simp⟩

namespace Statement

variable (as bs : List Statement)

theorem yieldAll_append : yieldAll (as ++ bs) = yieldAll as ++ yieldAll bs := by
  induction as with
  | nil => rfl
  | cons s as ih => simp [yieldAll, ih]

theorem nestAll_append : nestAll (as ++ bs) = max (nestAll as) (nestAll bs) := by
  induction as with
  | nil => simp [nestAll]
  | cons s as ih => simp [nestAll, ih, Nat.max_assoc]

theorem layeredAll_append : LayeredAll (as ++ bs) ↔ LayeredAll as ∧ LayeredAll bs := by
  induction as with
  | nil => simp [LayeredAll]
  | cons s as ih => simp [LayeredAll, ih, and_assoc]

theorem separatedAll_cons_cons (s t : Statement) : SeparatedAll (s :: t :: bs) ↔
    s.Separated ∧ s.StandsApart t ∧ SeparatedAll (t :: bs) := by
  simp [SeparatedAll]

/-- Two lists of statements can follow each other if the statements at the seam can. -/
theorem separatedAll_append : SeparatedAll (as ++ bs) ↔
    SeparatedAll as ∧ SeparatedAll bs ∧ ∀ s ∈ as.getLast?, ∀ t ∈ bs.head?, s.StandsApart t := by
  induction as with
  | nil => simp [SeparatedAll]
  | cons s as ih =>
      cases as with
      | nil => simp [SeparatedAll, and_comm]
      | cons s' as =>
          rw [List.cons_append, List.cons_append, separatedAll_cons_cons, separatedAll_cons_cons,
            List.getLast?_cons_cons, ← List.cons_append, ih, and_assoc, and_assoc]

end Statement

end Abacus
