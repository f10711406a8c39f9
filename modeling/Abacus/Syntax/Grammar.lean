import Abacus.Syntax.Rule

/-!
The grammar. A prefix operator, a group, a call, an assignment and a pair of braces each open a level
of nesting, and only a limited number of levels may be open at a time. So the rules are built by
recursion on the number of levels that may still be opened: what stands inside a level is read by the
rules with one level less.

    block      := statement*
    statement  := "var" NAME "=" assignment | "{" block "}" | assignment
    assignment := NAME "=" assignment | logical
    logical    := comparison (("&&" | "||") comparison)*
    comparison := additive (("==" | "!=" | "<" | ">") additive)*
    additive   := multiplicative (("+" | "-") multiplicative)*
    multiplicative := factor (("*" | "/") factor)*
    factor     := NUMBER | NAME | NAME "(" arguments ")" | ("-" | "!") factor | "(" assignment ")"
-/
namespace Abacus

/-- How many levels of nesting may be open at a time. -/
def nestingLimit : Nat := 128

/-- The rules that depend on the levels that may still be opened. -/
structure Grammar where
  factor : Rule Expr
  assignment : Rule Expr
  statement : Rule Statement

namespace Grammar

variable {α : Type}

/-- The line of the next token. A list that has run out is reported on the given line. -/
def lineAt (endLine : Nat) : List Token → Nat
  | [] => endLine
  | t :: _ => t.line

/-- Reads inside a further level, if one may be opened. The line is that of the token that opens
it. -/
def nested (inner : Option Grammar) (line : Nat) (body : Grammar → List Token → Outcome α)
    (ts : List Token) : Outcome α :=
  match inner with
  | none => .error (.nestingTooDeep nestingLimit line) ts
  | some g => body g ts

/-- Reads the rest of a group after its opening parenthesis. -/
def group (endLine : Nat) (g : Grammar) (ts : List Token) : Outcome Expr :=
  (g.assignment.run ts).bind fun inner rest =>
    match rest with
    | [] => .error (.unclosedParen .eof endLine) []
    | t :: rest' =>
      if t.kind = .rightParen then .ok (.group inner) rest'
      else .error (.unclosedParen t.kind t.line) (t :: rest')

/-- Reads the statements after an opening brace, and the closing one. -/
def braced (endLine : Nat) (statement : Rule Statement) (ts : List Token) :
    Outcome (List Statement) :=
  (Rule.statements statement ts).bind fun body rest =>
    match rest with
    | [] => .error (.unclosedBrace .eof endLine) []
    | t :: rest' =>
      if t.kind = .rightBrace then .ok body rest'
      else .error (.unclosedBrace t.kind t.line) (t :: rest')

/-- Reads what follows a name: the arguments of a call, or nothing. -/
def nameOrCall (endLine : Nat) (inner : Option Grammar) (line : Nat) (name : String) :
    List Token → Outcome Expr
  | [] => .ok (.name line name) []
  | t :: rest =>
    if t.kind = .leftParen then
      (nested inner line (fun g => Rule.arguments endLine g.assignment) rest).map
        (.call line name)
    else .ok (.name line name) (t :: rest)

/-- Reads a number, a name, a call, a group, or a prefix operator and its operand. -/
def readFactor (endLine : Nat) (inner : Option Grammar) : List Token → Outcome Expr
  | [] => .error (.unexpectedEnd endLine) []
  | t :: rest =>
    match t.kind with
    | .minus => (nested inner t.line (·.factor.run) rest).map (.negate t.line)
    | .bang => (nested inner t.line (·.factor.run) rest).map (.not t.line)
    | .integer value | .float value => .ok (.number t.line value) rest
    | .identifier name => nameOrCall endLine inner t.line name rest
    | .leftParen => nested inner t.line (group endLine) rest
    | .keyword .cond => .error (.reservedKeyword .cond t.line) (t :: rest)
    | .eof => .error (.unexpectedEnd t.line) (t :: rest)
    | kind => .error (.unexpectedToken kind t.line) (t :: rest)

/-- Reads an assignment if a name and `=` come next, and an operand of no assignment otherwise. -/
def readAssignment (inner : Option Grammar) (logical : Rule Expr) : List Token → Outcome Expr
  | ⟨.identifier name, line⟩ :: ⟨.assign, _⟩ :: rest =>
    (nested inner line (·.assignment.run) rest).map (.assign line name)
  | ts => logical.run ts

/-- Reads the rest of a declaration after the `var` on the given line. -/
def readDeclaration (assignment : Rule Expr) (line : Nat) : List Token → Outcome Statement
  | [] => .error (.expectedIdentifier .eof line) []
  | ⟨.identifier name, _⟩ :: rest =>
    match rest with
    | [] => .error (.unexpectedEnd line) []
    | t :: rest' =>
      if t.kind = .assign then (assignment.run rest').map (.declare line name)
      else .error (.expectedAssign name t.kind line) (t :: rest')
  | t :: rest => .error (.expectedIdentifier t.kind line) (t :: rest)

/-- Reads a declaration, a pair of braces, or an expression for its value. -/
def readStatement (endLine : Nat) (inner : Option Grammar) (assignment : Rule Expr) :
    List Token → Outcome Statement
  | [] => (assignment.run []).map .expression
  | t :: rest =>
    match t.kind with
    | .keyword .var => readDeclaration assignment t.line rest
    | .leftBrace =>
      (nested inner t.line (fun g => braced endLine g.statement) rest).map (.block t.line)
    | _ => (assignment.run (t :: rest)).map .expression

theorem length_lt_of_group {endLine : Nat} {g : Grammar} {ts rest : List Token} {e : Expr}
    (h : group endLine g ts = .ok e rest) : rest.length < ts.length := by
  obtain ⟨inner, mid, hi, hm⟩ := Outcome.bind_eq_ok_iff.1 h
  have := g.assignment.progress hi
  split at hm
  · cases hm
  · split at hm
    · obtain ⟨_, rfl⟩ := Outcome.ok.inj hm
      simp only [List.length_cons] at this
      omega
    · cases hm

theorem length_lt_of_braced {endLine : Nat} {statement : Rule Statement} {ts rest : List Token}
    {body : List Statement} (h : braced endLine statement ts = .ok body rest) :
    rest.length < ts.length := by
  obtain ⟨inner, mid, hi, hm⟩ := Outcome.bind_eq_ok_iff.1 h
  have := Rule.length_le_of_statements hi
  split at hm
  · cases hm
  · split at hm
    · obtain ⟨_, rfl⟩ := Outcome.ok.inj hm
      simp only [List.length_cons] at this
      omega
    · cases hm

/-- Reading inside a level shortens the list if the body does. -/
theorem length_lt_of_nested {inner : Option Grammar} {line : Nat}
    {body : Grammar → List Token → Outcome α} {ts rest : List Token} {a : α}
    (hb : ∀ {g a rest}, body g ts = .ok a rest → rest.length < ts.length)
    (h : nested inner line body ts = .ok a rest) : rest.length < ts.length := by
  cases inner with
  | none => cases h
  | some g => exact hb h

theorem length_le_of_nameOrCall {endLine : Nat} {inner : Option Grammar} {line : Nat}
    {name : String} {ts rest : List Token} {e : Expr}
    (h : nameOrCall endLine inner line name ts = .ok e rest) : rest.length ≤ ts.length := by
  unfold nameOrCall at h
  split at h
  · obtain ⟨_, rfl⟩ := Outcome.ok.inj h
    exact Nat.le_refl _
  · split at h
    · obtain ⟨as, ha, _⟩ := Outcome.map_eq_ok_iff.1 h
      have := length_lt_of_nested Rule.length_lt_of_arguments ha
      simp only [List.length_cons]
      omega
    · obtain ⟨_, rfl⟩ := Outcome.ok.inj h
      exact Nat.le_refl _

theorem length_lt_of_readFactor {endLine : Nat} {inner : Option Grammar} {ts rest : List Token}
    {e : Expr} (h : readFactor endLine inner ts = .ok e rest) : rest.length < ts.length := by
  unfold readFactor at h
  split at h
  · cases h
  · rename_i t mid
    simp only [List.length_cons]
    split at h
    case h_1 | h_2 =>
      obtain ⟨_, ha, _⟩ := Outcome.map_eq_ok_iff.1 h
      have := length_lt_of_nested (fun {g _ _} => g.factor.progress) ha
      omega
    case h_3 | h_4 =>
      obtain ⟨_, rfl⟩ := Outcome.ok.inj h
      omega
    case h_5 =>
      have := length_le_of_nameOrCall h
      omega
    case h_6 =>
      have := length_lt_of_nested length_lt_of_group h
      omega
    case h_7 | h_8 | h_9 => cases h

theorem length_lt_of_readAssignment {inner : Option Grammar} {logical : Rule Expr}
    {ts rest : List Token} {e : Expr} (h : readAssignment inner logical ts = .ok e rest) :
    rest.length < ts.length := by
  unfold readAssignment at h
  split at h
  · obtain ⟨_, ha, _⟩ := Outcome.map_eq_ok_iff.1 h
    have := length_lt_of_nested (fun {g _ _} => g.assignment.progress) ha
    simp only [List.length_cons]
    omega
  · exact logical.progress h

theorem length_lt_of_readDeclaration {assignment : Rule Expr} {line : Nat}
    {ts rest : List Token} {s : Statement}
    (h : readDeclaration assignment line ts = .ok s rest) : rest.length < ts.length := by
  unfold readDeclaration at h
  split at h
  · cases h
  · split at h
    · cases h
    · split at h
      · obtain ⟨_, ha, _⟩ := Outcome.map_eq_ok_iff.1 h
        have := assignment.progress ha
        simp only [List.length_cons]
        omega
      · cases h
  · cases h

theorem length_lt_of_readStatement {endLine : Nat} {inner : Option Grammar}
    {assignment : Rule Expr} {ts rest : List Token} {s : Statement}
    (h : readStatement endLine inner assignment ts = .ok s rest) : rest.length < ts.length := by
  unfold readStatement at h
  split at h
  · obtain ⟨_, ha, _⟩ := Outcome.map_eq_ok_iff.1 h
    exact assignment.progress ha
  · split at h
    · have := length_lt_of_readDeclaration h
      simp only [List.length_cons]
      omega
    · obtain ⟨_, ha, _⟩ := Outcome.map_eq_ok_iff.1 h
      have := length_lt_of_nested length_lt_of_braced ha
      simp only [List.length_cons]
      omega
    · obtain ⟨_, ha, _⟩ := Outcome.map_eq_ok_iff.1 h
      exact assignment.progress ha

/-- The factor rule over the rules of the next level, if one may be opened. -/
def factorRule (endLine : Nat) (inner : Option Grammar) : Rule Expr :=
  ⟨readFactor endLine inner, length_lt_of_readFactor⟩

def multiplicative (factor : Rule Expr) : Rule Expr :=
  Rule.chain .multiplicative factor

def additive (factor : Rule Expr) : Rule Expr :=
  Rule.chain .additive (multiplicative factor)

def comparison (factor : Rule Expr) : Rule Expr :=
  Rule.chain .comparison (additive factor)

def logical (factor : Rule Expr) : Rule Expr :=
  Rule.chain .logical (comparison factor)

def assignmentRule (endLine : Nat) (inner : Option Grammar) : Rule Expr :=
  ⟨readAssignment inner (logical (factorRule endLine inner)), length_lt_of_readAssignment⟩

def statementRule (endLine : Nat) (inner : Option Grammar) : Rule Statement :=
  ⟨readStatement endLine inner (assignmentRule endLine inner), length_lt_of_readStatement⟩

/-- The rules over those of the next level, if one may be opened. -/
def next (endLine : Nat) (inner : Option Grammar) : Grammar :=
  ⟨factorRule endLine inner, assignmentRule endLine inner, statementRule endLine inner⟩

/-- The rules with `room` levels that may still be opened. -/
def withRoom (endLine : Nat) : Nat → Grammar
  | 0 => next endLine none
  | room + 1 => next endLine (some (withRoom endLine room))

end Grammar

/-- The parts of the grammar that can be read on their own, with what they read. -/
inductive Production : Type → Type where
  | block : Production Block
  /-- The rest of a block after the opening brace on the given line. -/
  | braced (line : Nat) : Production Block
  | statement : Production Statement
  | assignment : Production Expr
  | logical : Production Expr
  | comparison : Production Expr
  | additive : Production Expr
  | multiplicative : Production Expr
  | factor : Production Expr

namespace Production

/-- Reads one part of the grammar by the given rules. -/
def readWith (g : Grammar) (endLine : Nat) {α : Type} :
    Production α → List Token → Outcome α
  | block, ts => (Rule.statements g.statement ts).map (⟨Grammar.lineAt endLine ts, ·⟩)
  | braced line, ts => (Grammar.braced endLine g.statement ts).map (⟨line, ·⟩)
  | statement, ts => g.statement.run ts
  | assignment, ts => g.assignment.run ts
  | logical, ts => (Grammar.logical g.factor).run ts
  | comparison, ts => (Grammar.comparison g.factor).run ts
  | additive, ts => (Grammar.additive g.factor).run ts
  | multiplicative, ts => (Grammar.multiplicative g.factor).run ts
  | factor, ts => g.factor.run ts

/-- Reads one part of the grammar from a list whose end is reported on the given line, with `room`
levels that may be opened. -/
def read (endLine room : Nat) {α : Type} (p : Production α) (ts : List Token) : Outcome α :=
  p.readWith (Grammar.withRoom endLine room) endLine ts

end Production

end Abacus
