import Abacus.Syntax
import Abacus.Syntax.Error

/-!
Reading by rules. A rule takes tokens from the front of a list; whether it succeeds or fails, it
leaves the tokens it did not use, the blamed one first. A rule that succeeds has used a token, so the
lists of operands, arguments and statements that are read by repeating one come to an end.
-/
namespace Abacus

/-- What reading ends with, and the tokens that are left. -/
inductive Outcome (α : Type) where
  | ok (value : α) (rest : List Token)
  | error (cause : ParseError) (rest : List Token)

namespace Outcome

variable {α β : Type}

def map (f : α → β) : Outcome α → Outcome β
  | ok a rest => ok (f a) rest
  | error e rest => error e rest

/-- Goes on reading where a success has stopped. -/
def bind (o : Outcome α) (next : α → List Token → Outcome β) : Outcome β :=
  match o with
  | ok a rest => next a rest
  | error e rest => error e rest

/-- The tokens that are left. -/
def rest : Outcome α → List Token
  | ok _ rest | error _ rest => rest

def result : Outcome α → Except ParseError α
  | ok a _ => .ok a
  | error e _ => .error e

@[simp] theorem map_eq_ok_iff {f : α → β} {o : Outcome α} {b : β} {rest : List Token} :
    o.map f = ok b rest ↔ ∃ a, o = ok a rest ∧ f a = b := by
  cases o with
  | ok a r =>
      simp only [map, ok.injEq]
      constructor
      · rintro ⟨rfl, rfl⟩
        exact ⟨a, ⟨rfl, rfl⟩, rfl⟩
      · rintro ⟨_, ⟨rfl, rfl⟩, rfl⟩
        exact ⟨rfl, rfl⟩
  | error e r => simp [map]

@[simp] theorem map_eq_error_iff {f : α → β} {o : Outcome α} {e : ParseError}
    {rest : List Token} : o.map f = error e rest ↔ o = error e rest := by
  cases o <;> simp [map]

@[simp] theorem bind_eq_ok_iff {o : Outcome α} {next : α → List Token → Outcome β} {b : β}
    {rest : List Token} :
    o.bind next = ok b rest ↔ ∃ a mid, o = ok a mid ∧ next a mid = ok b rest := by
  cases o with
  | ok a mid =>
      refine ⟨fun h => ⟨a, mid, rfl, h⟩, ?_⟩
      rintro ⟨_, _, ⟨rfl, rfl⟩, h⟩
      exact h
  | error e mid => simp [bind]

@[simp] theorem bind_eq_error_iff {o : Outcome α} {next : α → List Token → Outcome β}
    {e : ParseError} {rest : List Token} :
    o.bind next = error e rest ↔
      o = error e rest ∨ ∃ a mid, o = ok a mid ∧ next a mid = error e rest := by
  cases o with
  | ok a mid =>
      refine ⟨fun h => .inr ⟨a, mid, rfl, h⟩, ?_⟩
      rintro (h | ⟨_, _, ⟨rfl, rfl⟩, h⟩)
      · cases h
      · exact h
  | error e mid => simp [bind]

end Outcome

/-- A way to read a value that uses up at least one token when it succeeds. -/
structure Rule (α : Type) where
  run : List Token → Outcome α
  progress : ∀ {ts a rest}, run ts = .ok a rest → rest.length < ts.length

namespace Rule

/-- Reads the operators of one level and their right operands after a left operand; operators of one
level associate to the left. -/
def chainFrom (level : Level) (operand : Rule Expr) (left : Expr) : List Token → Outcome Expr
  | [] => .ok left []
  | t :: rest =>
    match t.kind.binOp? with
    | none => .ok left (t :: rest)
    | some op =>
      if op.level = level then
        match _h : operand.run rest with
        | .error e rest' => .error e rest'
        | .ok right rest' => chainFrom level operand (.binary t.line op left right) rest'
      else .ok left (t :: rest)
termination_by ts => ts.length
decreasing_by
  have := operand.progress _h
  simp only [List.length_cons]
  omega

theorem length_le_of_chainFrom {level : Level} {operand : Rule Expr} {left e : Expr}
    {ts rest : List Token} (h : chainFrom level operand left ts = .ok e rest) :
    rest.length ≤ ts.length := by
  fun_induction chainFrom level operand left ts with
  | case1 | case2 | case5 => simp_all
  | case3 => simp at h
  | case4 left t rest' op hop hl right mid hm ih =>
    have := ih h
    have := operand.progress hm
    simp only [List.length_cons]
    omega

/-- Operands of one kind joined by the operators of one level. -/
def chain (level : Level) (operand : Rule Expr) : Rule Expr where
  run ts := (operand.run ts).bind (chainFrom level operand)
  progress h := by
    obtain ⟨left, mid, hl, hc⟩ := Outcome.bind_eq_ok_iff.1 h
    have := operand.progress hl
    have := length_le_of_chainFrom hc
    omega

/-- Reads arguments and the commas between them up to the closing parenthesis. A list that has run
out is reported on the given line. -/
def argumentsFrom (endLine : Nat) (argument : Rule Expr) (ts : List Token) : Outcome (List Expr) :=
  match _h : argument.run ts with
  | .error e rest => .error e rest
  | .ok _ [] => .error (.unclosedParen .eof endLine) []
  | .ok a (t :: rest) =>
    if t.kind = .comma then (argumentsFrom endLine argument rest).map (a :: ·)
    else if t.kind = .rightParen then .ok [a] rest
    else .error (.unclosedParen t.kind t.line) (t :: rest)
termination_by ts.length
decreasing_by
  have := argument.progress _h
  simp only [List.length_cons] at this
  omega

/-- Reads an argument list, which may be empty, after its opening parenthesis. -/
def arguments (endLine : Nat) (argument : Rule Expr) : List Token → Outcome (List Expr)
  | [] => argumentsFrom endLine argument []
  | t :: rest =>
    if t.kind = .rightParen then .ok [] rest else argumentsFrom endLine argument (t :: rest)

theorem length_lt_of_argumentsFrom {endLine : Nat} {argument : Rule Expr} {ts rest : List Token}
    {as : List Expr} (h : argumentsFrom endLine argument ts = .ok as rest) :
    rest.length < ts.length := by
  fun_induction argumentsFrom endLine argument ts generalizing as with
  | case1 | case2 | case5 => simp at h
  | case3 ts a t mid hm hk ih =>
    obtain ⟨bs, hbs, rfl⟩ := Outcome.map_eq_ok_iff.1 h
    have := ih hbs
    have := argument.progress hm
    simp only [List.length_cons] at this
    omega
  | case4 ts a t mid hm hk hp =>
    have := argument.progress hm
    simp only [List.length_cons] at this
    obtain ⟨_, rfl⟩ := Outcome.ok.inj h
    omega

theorem length_lt_of_arguments {endLine : Nat} {argument : Rule Expr} {ts rest : List Token}
    {as : List Expr} (h : arguments endLine argument ts = .ok as rest) :
    rest.length < ts.length := by
  unfold arguments at h
  split at h
  · exact length_lt_of_argumentsFrom h
  · split at h
    · obtain ⟨_, rfl⟩ := Outcome.ok.inj h
      simp
    · exact length_lt_of_argumentsFrom h

/-- Whether a token stands where a list of statements stops. -/
def endsStatements (kind : Token.Kind) : Bool :=
  kind == .eof || kind == .rightBrace

/-- Reads statements up to a closing brace or the end, neither of which is used. -/
def statements (statement : Rule Statement) : List Token → Outcome (List Statement)
  | [] => .ok [] []
  | t :: ts =>
    if endsStatements t.kind then .ok [] (t :: ts)
    else
      match _h : statement.run (t :: ts) with
      | .error e rest => .error e rest
      | .ok s rest => (statements statement rest).map (s :: ·)
termination_by ts => ts.length
decreasing_by exact statement.progress _h

theorem length_le_of_statements {statement : Rule Statement} {ts rest : List Token}
    {body : List Statement} (h : statements statement ts = .ok body rest) :
    rest.length ≤ ts.length := by
  fun_induction statements statement ts generalizing body with
  | case1 | case2 => simp_all
  | case3 => simp at h
  | case4 t ts hk s mid hm ih =>
    obtain ⟨_, hb, rfl⟩ := Outcome.map_eq_ok_iff.1 h
    have := ih hb
    have := statement.progress hm
    omega

end Rule

end Abacus
