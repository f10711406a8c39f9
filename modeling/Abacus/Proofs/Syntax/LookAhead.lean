import Abacus.Proofs.Syntax.Completeness

/-!
How far a rule looks. What a rule does depends on the tokens that it uses and on the one behind them,
and not on the line that the end of the list is reported on, as long as a token is left. After a success
the token behind may even be another one, if neither carries on what was read. These are properties of
single outcomes first, which go through sequences of rules; the grammar then has them by induction on
the room.
-/
namespace Abacus

namespace Outcome

variable {α β : Type}

/-- The same outcome with other tokens left. -/
def leaving (o : Outcome α) (rest : List Token) : Outcome α :=
  match o with
  | ok a _ => ok a rest
  | error e _ => error e rest

/-- The tokens `new` start in such a way that they can stand for those that are left: with the same
token, or, after a success, with one of a kind where reading stops. -/
def Admits (stops : Token.Kind → Prop) (o : Outcome α) (new : List Token) : Prop :=
  match o with
  | ok _ rest => new.head? = rest.head? ∨ ∀ t ∈ new.head?, stops t.kind
  | error _ rest => ∃ t ∈ rest.head?, t ∈ new.head?

/-- The outcome of reading `ts` is what `f` repeats on every list that has the same tokens up to those
that are left, and then admitted ones. -/
def RepeatedBy (stops : Token.Kind → Prop) (f : List Token → Outcome α) (ts : List Token)
    (o : Outcome α) : Prop :=
  ∃ used, ts = used ++ o.rest ∧ ∀ new, o.Admits stops new → f (used ++ new) = o.leaving new

variable {stops stops' : Token.Kind → Prop} {f : List Token → Outcome α} {ts new : List Token}
  {o : Outcome α}

theorem Admits.mono (h : o.Admits stops' new) (hs : ∀ kind, stops' kind → stops kind) :
    o.Admits stops new := by
  cases o with
  | ok a rest => exact h.imp_right fun hstop t ht => hs _ (hstop t ht)
  | error e rest => exact h

/-- What starts with a token that carries on has to start like the tokens that are left. -/
theorem Admits.mem_head?_rest (h : o.Admits stops new) {t : Token} (ht : t ∈ new.head?)
    (hstops : ¬ stops t.kind) : t ∈ o.rest.head? := by
  cases o with
  | ok a rest =>
      obtain hhead | hall := h
      · exact hhead ▸ ht
      · exact absurd (hall t ht) hstops
  | error e rest =>
      obtain ⟨u, hu, hu'⟩ := h
      obtain rfl := Option.mem_unique ht hu'
      exact hu

/-- Behind a common beginning the two lists start alike. Without one, what follows a second success is
seen by the first. -/
theorem Admits.append {o' : Outcome β} (h : o'.Admits stops' new) (a : α) (used : List Token)
    (hs : ∀ b, o' = ok b o'.rest → used = [] → ∀ kind, stops' kind → stops kind) :
    (ok a (used ++ o'.rest)).Admits stops (used ++ new) := by
  cases used with
  | cons t used => exact .inl rfl
  | nil =>
      cases o' with
      | ok b rest => exact h.mono (hs b rfl rfl)
      | error e rest =>
          obtain ⟨t, ht, ht'⟩ := h
          exact .inl ((Option.mem_def.1 ht').trans (Option.mem_def.1 ht).symm)

namespace RepeatedBy

theorem mono (h : RepeatedBy stops f ts o) (hs : ∀ kind, stops' kind → stops kind) :
    RepeatedBy stops' f ts o := by
  obtain ⟨used, rfl, hf⟩ := h
  exact ⟨used, rfl, fun new hnew => hf new (hnew.mono hs)⟩

theorem length_rest_le (h : RepeatedBy stops f ts o) : o.rest.length ≤ ts.length := by
  obtain ⟨used, hts, _⟩ := h
  rw [hts]
  simp

/-- An error where the list has run out is nothing that has to be repeated. -/
theorem error_nil (e : ParseError) : RepeatedBy stops f ts (error e []) :=
  ⟨ts, by simp [rest], fun _ ⟨_, ht, _⟩ => by cases ht⟩

theorem error_cons {e : ParseError} {t : Token} {mid : List Token}
    (hf : ∀ new, f (t :: new) = error e (t :: new)) :
    RepeatedBy stops f (t :: mid) (error e (t :: mid)) := by
  refine ⟨[], rfl, fun new ⟨u, hu, hnew⟩ => ?_⟩
  obtain rfl : t = u := by simpa using hu
  obtain ⟨new, rfl⟩ := List.head?_eq_some_iff.1 hnew
  exact hf new

theorem ok_unused {a : α} (hf : ∀ new, (ok a ts).Admits stops new → f new = ok a new) :
    RepeatedBy stops f ts (ok a ts) :=
  ⟨[], rfl, hf⟩

/-- After a token that closes something, anything may follow. -/
theorem ok_cons {a : α} {t : Token} (hf : ∀ new, f (t :: new) = ok a new) :
    RepeatedBy stops f (t :: ts) (ok a ts) :=
  ⟨[t], rfl, fun new _ => hf new⟩

theorem map (h : RepeatedBy stops f ts o) (g : α → β) :
    RepeatedBy stops (fun ts => (f ts).map g) ts (o.map g) := by
  obtain ⟨used, hts, hf⟩ := h
  cases o with
  | ok a rest => exact ⟨used, hts, fun new hnew => congrArg (Outcome.map g) (hf new hnew)⟩
  | error e rest => exact ⟨used, hts, fun new hnew => congrArg (Outcome.map g) (hf new hnew)⟩

theorem append {f' : List Token → Outcome α} (h : RepeatedBy stops f ts o) (first : List Token)
    (hf' : ∀ ts, f' (first ++ ts) = f ts) : RepeatedBy stops f' (first ++ ts) o := by
  obtain ⟨used, rfl, hf⟩ := h
  refine ⟨first ++ used, (List.append_assoc ..).symm, fun new hnew => ?_⟩
  rw [List.append_assoc, hf', hf new hnew]

theorem cons {f' : List Token → Outcome α} (h : RepeatedBy stops f ts o) {t : Token}
    (hf' : ∀ ts, f' (t :: ts) = f ts) : RepeatedBy stops f' (t :: ts) o :=
  h.append [t] hf'

theorem congr {f' : List Token → Outcome α} (h : RepeatedBy stops f ts o) (hf : ∀ ts, f' ts = f ts) :
    RepeatedBy stops f' ts o := by
  obtain rfl : f' = f := funext hf
  exact h

/-- One rule after another. The first sees what follows the second only where that uses nothing. -/
theorem bind {next next' : α → List Token → Outcome β} (h : RepeatedBy stops f ts o)
    (hn : ∀ a mid, o = ok a mid → RepeatedBy stops' (next' a) mid (next a mid))
    (hs : ∀ a mid b, next a mid = ok b mid → ∀ kind, stops' kind → stops kind) :
    RepeatedBy stops' (fun ts => (f ts).bind next') ts (o.bind next) := by
  obtain ⟨used, hts, hf⟩ := h
  cases o with
  | error e rest =>
      exact ⟨used, hts, fun new hnew => congrArg (Outcome.bind · next') (hf new hnew)⟩
  | ok a mid =>
      obtain ⟨used', hmid, hf'⟩ := hn a mid rfl
      refine ⟨used ++ used', ?_, fun new hnew => ?_⟩
      · rw [hts, List.append_assoc]
        exact congrArg (used ++ ·) hmid
      · have hadmits : (ok a (used' ++ (next a mid).rest)).Admits stops (used' ++ new) := by
          refine Admits.append hnew a used' fun b hb hused => hs a mid b ?_
          rw [hused] at hmid
          exact hb.trans (congrArg (ok b) hmid.symm)
        rw [← hmid] at hadmits
        rw [List.append_assoc]
        exact (congrArg (Outcome.bind · next') (hf _ hadmits)).trans (hf' new hnew)

theorem congr_of {f' : List Token → Outcome α} (h : RepeatedBy stops f ts o)
    (hf' : ∀ used new, ts = used ++ o.rest → o.Admits stops new → f' (used ++ new) = f (used ++ new)) :
    RepeatedBy stops f' ts o := by
  obtain ⟨used, hts, hf⟩ := h
  exact ⟨used, hts, fun new hnew => (hf' used new hts hnew).trans (hf new hnew)⟩

/-- What is read first decides only once, unless nothing is used. -/
theorem congr_head {f' : List Token → Outcome α} (h : RepeatedBy stops f ts o)
    (ho : ∀ a, o ≠ ok a ts) (hf' : ∀ ts', ts'.head? = ts.head? → f' ts' = f ts') :
    RepeatedBy stops f' ts o := by
  refine h.congr_of fun used new hts hnew => hf' _ ?_
  cases used with
  | cons t used =>
      rw [hts]
      rfl
  | nil =>
      obtain rfl : ts = o.rest := hts
      cases o with
      | ok a rest => exact absurd rfl (ho a)
      | error e rest =>
          obtain ⟨t, ht, ht'⟩ := hnew
          exact (Option.mem_def.1 ht').trans (Option.mem_def.1 ht).symm

end RepeatedBy

end Outcome

open Outcome

/-- A kind of token that carries no expression on: no operator joins it to a further operand, and it
makes no call or assignment of a name. -/
structure Token.Kind.Halts (kind : Token.Kind) : Prop where
  operator : kind.binOp? = none
  call : kind ≠ .leftParen
  target : kind ≠ .assign

theorem Rule.halts_of_ends {kind : Token.Kind} (h : endsStatements kind) : kind.Halts := by
  obtain rfl | rfl : kind = .eof ∨ kind = .rightBrace := by simpa [endsStatements] using h
  · exact ⟨rfl, by decide, by decide⟩
  · exact ⟨rfl, by decide, by decide⟩

namespace Rule

variable {α : Type}

/-- The second rule repeats what the first does. -/
def Repeats (rule rule' : Rule α) : Prop :=
  ∀ ts, RepeatedBy Token.Kind.Halts rule'.run ts (rule.run ts)

section Chain

variable {level : Level} {operand operand' : Rule Expr} {left : Expr}

theorem chainFrom_cons {t : Token} {op : BinOp} (hk : t.kind.binOp? = some op)
    (hl : op.level = level) (ts : List Token) :
    chainFrom level operand left (t :: ts) =
      (operand.run ts).bind fun right => chainFrom level operand (.binary t.line op left right) := by
  rw [chainFrom]
  simp only [hk, hl, ↓reduceIte]
  split <;> simp [*, Outcome.bind]

theorem chainFrom_of_no_operator {ts : List Token}
    (h : ∀ t ∈ ts.head?, ∀ op ∈ t.kind.binOp?, op.level ≠ level) :
    chainFrom level operand left ts = .ok left ts := by
  unfold chainFrom
  split
  · rfl
  · next t rest =>
    split
    · rfl
    · next op hop => simp [h t rfl op hop]

/-- Along a chain either an operator of the level comes next and an operand behind it, from which the chain
goes on, or the chain stops. -/
theorem chain_induction (level : Level) (operand : Rule Expr) {motive : Expr → List Token → Prop}
    (stop : ∀ left ts, (∀ t ∈ ts.head?, ∀ op ∈ t.kind.binOp?, op.level ≠ level) → motive left ts)
    (operator : ∀ left t op ts, t.kind.binOp? = some op → op.level = level →
      (∀ right mid, operand.run ts = .ok right mid → motive (.binary t.line op left right) mid) →
      motive left (t :: ts))
    (left : Expr) (ts : List Token) : motive left ts := by
  induction hn : ts.length using Nat.strongRecOn generalizing left ts with
  | ind n ih =>
      by_cases hop : ∃ t ∈ ts.head?, ∃ op ∈ t.kind.binOp?, op.level = level
      · obtain ⟨t, ht, op, hop, hl⟩ := hop
        obtain ⟨ts, rfl⟩ := List.head?_eq_some_iff.1 ht
        refine operator left t op ts hop hl fun right mid hr => ?_
        have := operand.progress hr
        exact ih mid.length (by simp only [List.length_cons] at hn; omega) _ mid rfl
      · exact stop left ts fun t ht op ho hl => hop ⟨t, ht, op, ho, hl⟩

theorem chainFrom_repeated (ho : operand.Repeats operand') (left : Expr) (ts : List Token) :
    RepeatedBy Token.Kind.Halts (chainFrom level operand' left) ts
      (chainFrom level operand left ts) := by
  induction left, ts using chain_induction level operand with
  | stop left ts hne =>
      rw [chainFrom_of_no_operator hne]
      refine .ok_unused fun new hnew => chainFrom_of_no_operator fun t ht op ho => ?_
      obtain hhead | hstop := hnew
      · exact hne t (hhead ▸ ht) op ho
      · rw [(hstop t ht).operator] at ho
        cases ho
  | operator left t op ts hop hl ih =>
      rw [chainFrom_cons hop hl]
      exact ((ho ts).bind ih (fun _ _ _ _ _ h => h)).cons (chainFrom_cons hop hl)

theorem Repeats.chain (level : Level) (ho : operand.Repeats operand') :
    (Rule.chain level operand).Repeats (Rule.chain level operand') :=
  fun ts => (ho ts).bind (fun left mid _ => chainFrom_repeated ho left mid) (fun _ _ _ _ _ h => h)

end Chain

/-- A rule for expressions never stops in front of a name. -/
def TakesNames (rule : Rule Expr) : Prop :=
  ∀ ⦃t ts name⦄, t.kind = .identifier name → (rule.run (t :: ts)).rest.length ≤ ts.length

theorem TakesNames.chain (level : Level) {operand operand' : Rule Expr} (h : operand.TakesNames)
    (ho : operand.Repeats operand') : (Rule.chain level operand).TakesNames := by
  intro t ts name hk
  have hlength : (operand.run (t :: ts)).rest.length ≤ ts.length := h hk
  simp only [Rule.chain]
  cases hrun : operand.run (t :: ts) with
  | error e rest =>
      rw [hrun] at hlength
      exact hlength
  | ok left mid =>
      rw [hrun] at hlength
      exact Nat.le_trans (chainFrom_repeated ho left mid).length_rest_le hlength

/-- Where such a rule uses nothing, no name comes next. -/
theorem TakesNames.ne_of_admits {rule : Rule Expr} (h : rule.TakesNames) {ts new : List Token}
    {stops : Token.Kind → Prop} (hrest : (rule.run ts).rest = ts)
    (hnew : (rule.run ts).Admits stops new) (t : Token) (ht : t ∈ new.head?) (name : String) :
    t.kind ≠ .identifier name := by
  intro hk
  cases ho : rule.run ts with
  | ok e rest =>
      rw [ho] at hrest
      have := rule.progress ho
      exact absurd (congrArg List.length hrest) (Nat.ne_of_lt this)
  | error e rest =>
      rw [ho] at hrest hnew
      obtain ⟨u, hu, hu'⟩ := hnew
      obtain rfl := Option.mem_unique ht hu'
      obtain rfl : rest = ts := hrest
      obtain ⟨mid, rfl⟩ := List.head?_eq_some_iff.1 hu
      have hlength : (rule.run (t :: mid)).rest.length ≤ mid.length := h hk
      rw [ho] at hlength
      exact absurd hlength (Nat.not_succ_le_self _)

section Arguments

variable {endLine : Nat} {argument argument' : Rule Expr} {stops : Token.Kind → Prop}

/-- What follows an argument: a comma and further arguments, or the closing parenthesis. -/
def argumentsAfter (endLine : Nat) (argument : Rule Expr) (a : Expr) :
    List Token → Outcome (List Expr)
  | [] => .error (.unclosedParen .eof endLine) []
  | t :: rest =>
    if t.kind = .comma then (argumentsFrom endLine argument rest).map (a :: ·)
    else if t.kind = .rightParen then .ok [a] rest
    else .error (.unclosedParen t.kind t.line) (t :: rest)

theorem argumentsFrom_eq_bind (ts : List Token) :
    argumentsFrom endLine argument ts =
      (argument.run ts).bind (argumentsAfter endLine argument) := by
  rw [argumentsFrom]
  split <;> simp [*, Outcome.bind, argumentsAfter]

theorem length_lt_of_argumentsAfter {a : Expr} {as : List Expr} {ts rest : List Token}
    (h : argumentsAfter endLine argument a ts = .ok as rest) : rest.length < ts.length := by
  unfold argumentsAfter at h
  split at h
  · cases h
  · split at h
    · obtain ⟨_, has, _⟩ := Outcome.map_eq_ok_iff.1 h
      have := length_lt_of_argumentsFrom has
      simp only [List.length_cons]
      omega
    · split at h
      · cases h
        simp
      · cases h

theorem argumentsAfter_repeated (endLine endLine' : Nat) (a : Expr) {ts : List Token}
    (h : ∀ t rest, ts = t :: rest → t.kind = .comma →
      RepeatedBy stops (argumentsFrom endLine' argument') rest
        (argumentsFrom endLine argument rest)) :
    RepeatedBy stops (argumentsAfter endLine' argument' a) ts
      (argumentsAfter endLine argument a ts) := by
  cases ts with
  | nil => exact .error_nil _
  | cons t ts =>
      by_cases hcomma : t.kind = .comma
      · simp only [argumentsAfter, hcomma, ↓reduceIte]
        exact ((h t ts rfl hcomma).map (a :: ·)).cons fun ts => by simp [argumentsAfter, hcomma]
      · by_cases hclose : t.kind = .rightParen
        · simp only [argumentsAfter, hclose, reduceCtorEq, ↓reduceIte]
          exact .ok_cons fun new => by simp [argumentsAfter, hclose]
        · simp only [argumentsAfter, hcomma, hclose, ↓reduceIte]
          exact .error_cons fun new => by simp [argumentsAfter, hcomma, hclose]

/-- Behind an argument and the token that follows it there may be further arguments. -/
theorem arguments_induction (argument : Rule Expr) {motive : List Token → Prop}
    (step : ∀ ts, (∀ a t mid, argument.run ts = .ok a (t :: mid) → motive mid) → motive ts)
    (ts : List Token) : motive ts := by
  induction hn : ts.length using Nat.strongRecOn generalizing ts with
  | ind n ih =>
      refine step ts fun a t mid hmid => ?_
      have := argument.progress hmid
      exact ih mid.length (by simp only [List.length_cons] at this; omega) mid rfl

theorem argumentsFrom_repeated (endLine endLine' : Nat) (ha : argument.Repeats argument')
    (ts : List Token) :
    RepeatedBy stops (argumentsFrom endLine' argument') ts (argumentsFrom endLine argument ts) := by
  induction ts using arguments_induction argument with
  | step ts ih =>
      rw [argumentsFrom_eq_bind]
      refine ((ha ts).bind (fun a mid hmid => ?_) (fun a mid as h => ?_)).congr argumentsFrom_eq_bind
      · exact argumentsAfter_repeated endLine endLine' a fun t rest hrest _ =>
          ih a t rest (hrest ▸ hmid)
      · exact absurd (length_lt_of_argumentsAfter h) (Nat.lt_irrefl _)

theorem arguments_of_ne {ts : List Token} (h : ∀ t ∈ ts.head?, t.kind ≠ .rightParen) :
    arguments endLine argument ts = argumentsFrom endLine argument ts := by
  cases ts with
  | nil => rfl
  | cons t ts => simp [arguments, h t rfl]

theorem arguments_repeated (endLine endLine' : Nat) (ha : argument.Repeats argument')
    (ts : List Token) :
    RepeatedBy stops (arguments endLine' argument') ts (arguments endLine argument ts) := by
  by_cases hclose : ∃ t ∈ ts.head?, t.kind = .rightParen
  · obtain ⟨t, ht, hk⟩ := hclose
    obtain ⟨ts, rfl⟩ := List.head?_eq_some_iff.1 ht
    simp only [arguments, hk, ↓reduceIte]
    exact .ok_cons fun new => by simp [arguments, hk]
  · have hne : ∀ t ∈ ts.head?, t.kind ≠ .rightParen := fun t ht hk => hclose ⟨t, ht, hk⟩
    rw [arguments_of_ne hne]
    refine (argumentsFrom_repeated endLine endLine' ha ts).congr_head (fun as h => ?_)
      fun ts' hts' => ?_
    · exact absurd (length_lt_of_argumentsFrom h) (Nat.lt_irrefl _)
    · exact arguments_of_ne (hts' ▸ hne)

end Arguments

/-- What closes a construct: a token of the given kind. -/
def closing (kind : Token.Kind) (unclosed : Token.Kind → Nat → ParseError) (endLine : Nat) (a : α) :
    List Token → Outcome α
  | [] => .error (unclosed .eof endLine) []
  | t :: rest => if t.kind = kind then .ok a rest else .error (unclosed t.kind t.line) (t :: rest)

theorem closing_repeated {kind : Token.Kind} {unclosed : Token.Kind → Nat → ParseError}
    {endLine endLine' : Nat} {stops : Token.Kind → Prop} (a : α) (ts : List Token) :
    RepeatedBy stops (closing kind unclosed endLine' a) ts (closing kind unclosed endLine a ts) := by
  cases ts with
  | nil => exact .error_nil _
  | cons t ts =>
      by_cases hk : t.kind = kind
      · simp only [closing, hk, ↓reduceIte]
        exact .ok_cons fun new => by simp [closing, hk]
      · simp only [closing, hk, ↓reduceIte]
        exact .error_cons fun new => by simp [closing, hk]

theorem length_lt_of_closing {kind : Token.Kind} {unclosed : Token.Kind → Nat → ParseError}
    {endLine : Nat} {a b : α} {ts rest : List Token}
    (h : closing kind unclosed endLine a ts = .ok b rest) : rest.length < ts.length := by
  unfold closing at h
  split at h
  · cases h
  · split at h
    · cases h
      simp
    · cases h

section Statements

variable {statement statement' : Rule Statement}

theorem statements_cons {t : Token} (ht : endsStatements t.kind = false) (ts : List Token) :
    statements statement (t :: ts) =
      (statement.run (t :: ts)).bind fun s rest => (statements statement rest).map (s :: ·) := by
  rw [statements]
  simp only [ht, Bool.false_eq_true, ↓reduceIte]
  split <;> simp [*, Outcome.bind]

/-- Statements either stop, or one of them comes next and others may follow it. -/
theorem statements_induction (statement : Rule Statement) {motive : List Token → Prop}
    (stop : ∀ ts, (∀ t ∈ ts.head?, endsStatements t.kind) → motive ts)
    (more : ∀ t ts, endsStatements t.kind = false →
      (∀ s mid, statement.run (t :: ts) = .ok s mid → motive mid) → motive (t :: ts))
    (ts : List Token) : motive ts := by
  induction hn : ts.length using Nat.strongRecOn generalizing ts with
  | ind n ih =>
      by_cases hend : ∃ t ∈ ts.head?, endsStatements t.kind = false
      · obtain ⟨t, ht, hk⟩ := hend
        obtain ⟨ts, rfl⟩ := List.head?_eq_some_iff.1 ht
        refine more t ts hk fun s mid hmid => ?_
        have := statement.progress hmid
        exact ih mid.length (by omega) mid rfl
      · exact stop ts fun t ht => eq_true_of_ne_false fun hk => hend ⟨t, ht, hk⟩

theorem statements_repeated (hs : statement.Repeats statement') (ts : List Token) :
    RepeatedBy (endsStatements ·) (statements statement') ts (statements statement ts) := by
  induction ts using statements_induction statement with
  | stop ts hend =>
      rw [statements_of_ends hend]
      refine .ok_unused fun new hnew => statements_of_ends fun t ht => ?_
      obtain hhead | hstop := hnew
      · exact hend t (hhead ▸ ht)
      · exact hstop t ht
  | more t ts hk ih =>
      rw [statements_cons hk]
      have hrep := (hs (t :: ts)).bind (fun s mid hmid => (ih s mid hmid).map (s :: ·))
        (fun _ _ _ _ _ h => halts_of_ends h)
      refine hrep.congr_head (fun body h => ?_) fun ts' hts' => ?_
      · obtain ⟨s, mid, hmid, hrest⟩ := Outcome.bind_eq_ok_iff.1 h
        obtain ⟨_, hbody, _⟩ := Outcome.map_eq_ok_iff.1 hrest
        have := statement.progress hmid
        have := length_le_of_statements hbody
        omega
      · obtain ⟨ts', rfl⟩ := List.head?_eq_some_iff.1 hts'
        exact statements_cons hk ts'

end Statements

end Rule

namespace Grammar

/-- The rules of the second grammar repeat what those of the first do. -/
structure Repeats (g g' : Grammar) : Prop where
  factor : g.factor.Repeats g'.factor
  assignment : g.assignment.Repeats g'.assignment
  statement : g.statement.Repeats g'.statement

variable {α : Type} {g g' : Grammar} {endLine endLine' : Nat} {inner inner' : Option Grammar}
  {stops : Token.Kind → Prop} {ts : List Token}

theorem nested_repeated {body body' : Grammar → List Token → Outcome α} (line : Nat)
    (hi : Option.Rel Repeats inner inner')
    (hb : ∀ {g g'}, g.Repeats g' → RepeatedBy stops (body' g') ts (body g ts)) :
    RepeatedBy stops (nested inner' line body') ts (nested inner line body ts) := by
  cases hi with
  | some h => exact hb h
  | none =>
      cases ts with
      | nil => exact .error_nil _
      | cons t ts => exact .error_cons fun _ => rfl

theorem group_eq_bind (ts : List Token) : group endLine g ts =
    (g.assignment.run ts).bind fun e =>
      Rule.closing .rightParen .unclosedParen endLine (.group e) := by
  rw [group]
  congr

theorem braced_eq_bind {statement : Rule Statement} (ts : List Token) :
    braced endLine statement ts =
      (Rule.statements statement ts).bind fun body =>
        Rule.closing .rightBrace .unclosedBrace endLine body := by
  rw [braced]
  congr

theorem group_repeated (endLine endLine' : Nat) (h : g.Repeats g') (ts : List Token) :
    RepeatedBy stops (group endLine' g') ts (group endLine g ts) := by
  rw [group_eq_bind]
  exact ((h.assignment ts).bind (fun e mid _ => Rule.closing_repeated _ mid)
    (fun _ _ _ h => absurd (Rule.length_lt_of_closing h) (Nat.lt_irrefl _))).congr group_eq_bind

theorem braced_repeated (endLine endLine' : Nat) {statement statement' : Rule Statement}
    (h : statement.Repeats statement') (ts : List Token) :
    RepeatedBy stops (braced endLine' statement') ts (braced endLine statement ts) := by
  rw [braced_eq_bind]
  exact ((Rule.statements_repeated h ts).bind (fun body mid _ => Rule.closing_repeated _ mid)
    (fun _ _ _ h => absurd (Rule.length_lt_of_closing h) (Nat.lt_irrefl _))).congr braced_eq_bind

theorem nameOrCall_of_ne {line : Nat} {name : String}
    (h : ∀ t ∈ ts.head?, t.kind ≠ .leftParen) :
    nameOrCall endLine inner line name ts = .ok (.name line name) ts := by
  cases ts with
  | nil => rfl
  | cons t ts => simp [nameOrCall, h t rfl]

theorem nameOrCall_repeated (endLine endLine' : Nat) (hi : Option.Rel Repeats inner inner')
    (line : Nat) (name : String) (ts : List Token) :
    RepeatedBy Token.Kind.Halts (nameOrCall endLine' inner' line name) ts
      (nameOrCall endLine inner line name ts) := by
  by_cases hcall : ∃ t ∈ ts.head?, t.kind = .leftParen
  · obtain ⟨t, ht, hk⟩ := hcall
    obtain ⟨ts, rfl⟩ := List.head?_eq_some_iff.1 ht
    simp only [nameOrCall, hk, ↓reduceIte]
    refine ((nested_repeated line hi fun h =>
      Rule.arguments_repeated endLine endLine' h.assignment ts).map (Expr.call line name)).cons
        fun ts => ?_
    simp [nameOrCall, hk]
  · have hne : ∀ t ∈ ts.head?, t.kind ≠ .leftParen := fun t ht hk => hcall ⟨t, ht, hk⟩
    rw [nameOrCall_of_ne hne]
    refine .ok_unused fun new hnew => nameOrCall_of_ne fun t ht => ?_
    obtain hhead | hstop := hnew
    · exact hne t (hhead ▸ ht)
    · exact (hstop t ht).call

theorem factorRule_repeats (hi : Option.Rel Repeats inner inner') :
    (factorRule endLine inner).Repeats (factorRule endLine' inner') := by
  intro ts
  change RepeatedBy _ (readFactor endLine' inner') ts (readFactor endLine inner ts)
  cases ts with
  | nil => exact .error_nil _
  | cons t ts =>
      rw [readFactor]
      split
      case h_1 hk | h_2 hk =>
        refine ((nested_repeated t.line hi fun h => h.factor ts).map _).cons fun ts => ?_
        simp [readFactor, hk]
      case h_3 value hk | h_4 value hk =>
        exact .ok_cons fun new => by simp [readFactor, hk]
      case h_5 name hk =>
        refine (nameOrCall_repeated endLine endLine' hi t.line name ts).cons fun ts => ?_
        simp [readFactor, hk]
      case h_6 hk =>
        refine (nested_repeated t.line hi fun h => group_repeated endLine endLine' h ts).cons
          fun ts => ?_
        simp [readFactor, hk]
      case h_7 hk | h_8 hk => exact .error_cons fun new => by simp [readFactor, hk]
      case h_9 =>
        refine .error_cons fun new => ?_
        rw [readFactor]
        split <;> simp_all

theorem factorRule_takesNames (hi : Option.Rel Repeats inner inner') :
    (factorRule endLine inner).TakesNames := by
  intro t ts name hk
  have h : (factorRule endLine inner).run (t :: ts) = nameOrCall endLine inner t.line name ts := by
    simp [factorRule, readFactor, hk]
  rw [h]
  exact (nameOrCall_repeated endLine endLine hi t.line name ts).length_rest_le

theorem logical_repeats {factor factor' : Rule Expr} (hf : factor.Repeats factor') :
    (logical factor).Repeats (logical factor') :=
  (((hf.chain .multiplicative).chain .additive).chain .comparison).chain .logical

theorem logical_takesNames {factor factor' : Rule Expr} (hf : factor.Repeats factor')
    (ht : factor.TakesNames) : (logical factor).TakesNames := by
  have hm := ht.chain .multiplicative hf
  have ha := hm.chain .additive (hf.chain _)
  have hc := ha.chain .comparison ((hf.chain _).chain _)
  exact hc.chain .logical (((hf.chain _).chain _).chain _)

/-- The tokens start with a name and the `=` that makes it a target. -/
def HasTarget (ts : List Token) : Prop :=
  ∃ name line line' mid, ts = ⟨.identifier name, line⟩ :: ⟨.assign, line'⟩ :: mid

theorem readAssignment_of_not_hasTarget {logical : Rule Expr} (h : ¬ HasTarget ts) :
    readAssignment inner logical ts = logical.run ts := by
  unfold readAssignment
  split
  · exact absurd ⟨_, _, _, _, rfl⟩ h
  · rfl

/-- Two tokens decide about a target, so where they are used, what follows has no say. -/
theorem not_hasTarget_append {used rest new : List Token} (h : ¬ HasTarget (used ++ rest))
    (hnil : used = [] → ∀ t ∈ new.head?, ∀ name, t.kind ≠ .identifier name)
    (hname : ∀ t name, used = [t] → t.kind = .identifier name →
      ∀ u ∈ new.head?, u.kind = .assign → u ∈ rest.head?) :
    ¬ HasTarget (used ++ new) := by
  rintro ⟨name, line, line', mid, hnew⟩
  match used with
  | [] =>
      obtain rfl : new = _ := hnew
      exact hnil rfl _ rfl name rfl
  | [t] =>
      obtain ⟨rfl, rfl⟩ := List.cons.inj hnew
      obtain ⟨rest, rfl⟩ := List.head?_eq_some_iff.1 (hname _ name rfl rfl _ rfl rfl)
      exact h ⟨_, _, _, _, rfl⟩
  | t :: u :: used =>
      obtain ⟨rfl, hnew'⟩ := List.cons.inj hnew
      obtain ⟨rfl, _⟩ := List.cons.inj hnew'
      exact h ⟨_, _, _, _, rfl⟩

theorem assignmentRule_repeats (hi : Option.Rel Repeats inner inner') :
    (assignmentRule endLine inner).Repeats (assignmentRule endLine' inner') := by
  intro ts
  have hf : (factorRule endLine inner).Repeats (factorRule endLine' inner') := factorRule_repeats hi
  change RepeatedBy _ (readAssignment inner' (logical (factorRule endLine' inner'))) ts
    (readAssignment inner (logical (factorRule endLine inner)) ts)
  by_cases htarget : HasTarget ts
  · obtain ⟨name, line, line', mid, rfl⟩ := htarget
    simp only [readAssignment]
    exact ((nested_repeated line hi fun h => h.assignment mid).map (Expr.assign line name)).append
      [⟨.identifier name, line⟩, ⟨.assign, line'⟩] fun ts => rfl
  · rw [readAssignment_of_not_hasTarget htarget]
    refine (logical_repeats hf ts).congr_of fun used new hts hnew =>
      readAssignment_of_not_hasTarget ?_
    rw [hts] at htarget
    refine not_hasTarget_append htarget (fun hused => ?_) fun _ _ _ _ u hu hk =>
      hnew.mem_head?_rest hu fun h => h.target hk
    rw [hused] at hts
    exact (logical_takesNames hf (factorRule_takesNames hi)).ne_of_admits hts.symm hnew

theorem readDeclaration_of_ne {assignment : Rule Expr} {line : Nat} {t : Token}
    (h : ∀ name, t.kind ≠ .identifier name) (ts : List Token) :
    readDeclaration assignment line (t :: ts) =
      .error (.expectedIdentifier t.kind line) (t :: ts) := by
  unfold readDeclaration
  split
  · cases ‹_›
  · next heq =>
    obtain ⟨rfl, _⟩ := List.cons.inj heq
    exact absurd rfl (h _)
  · next heq =>
    obtain ⟨rfl, rfl⟩ := List.cons.inj heq
    rfl

theorem readDeclaration_repeated {assignment assignment' : Rule Expr}
    (ha : assignment.Repeats assignment') (line : Nat) (ts : List Token) :
    RepeatedBy Token.Kind.Halts (readDeclaration assignment' line) ts
      (readDeclaration assignment line ts) := by
  match ts with
  | [] => exact .error_nil _
  | t :: ts =>
      by_cases hname : ∃ name, t.kind = .identifier name
      · obtain ⟨kind, line'⟩ := t
        obtain ⟨name, rfl : kind = _⟩ := hname
        match ts with
        | [] => exact .error_nil _
        | t :: ts =>
            by_cases hk : t.kind = .assign
            · simp only [readDeclaration, hk, ↓reduceIte]
              refine ((ha ts).map (Statement.declare line name)).append
                [⟨.identifier name, line'⟩, t] fun ts => ?_
              simp [readDeclaration, hk]
            · simp only [readDeclaration, hk, ↓reduceIte]
              refine RepeatedBy.append (f := fun ts =>
                  readDeclaration assignment' line (⟨.identifier name, line'⟩ :: ts))
                (.error_cons fun new => ?_) [⟨.identifier name, line'⟩] fun ts => rfl
              simp [readDeclaration, hk]
      · have hne : ∀ name, t.kind ≠ .identifier name := fun name h => hname ⟨name, h⟩
        rw [readDeclaration_of_ne hne]
        exact .error_cons (readDeclaration_of_ne hne)

theorem readStatement_of_ne {assignment : Rule Expr} (hv : ∀ t ∈ ts.head?, t.kind ≠ .keyword .var)
    (hb : ∀ t ∈ ts.head?, t.kind ≠ .leftBrace) :
    readStatement endLine inner assignment ts = (assignment.run ts).map .expression := by
  cases ts with
  | nil => rfl
  | cons t ts =>
      rw [readStatement]
      split
      · exact absurd ‹_› (hv t rfl)
      · exact absurd ‹_› (hb t rfl)
      · rfl

theorem statementRule_repeats (hi : Option.Rel Repeats inner inner') :
    (statementRule endLine inner).Repeats (statementRule endLine' inner') := by
  intro ts
  have ha : (assignmentRule endLine inner).Repeats (assignmentRule endLine' inner') :=
    assignmentRule_repeats hi
  change RepeatedBy _ (readStatement endLine' inner' (assignmentRule endLine' inner')) ts
    (readStatement endLine inner (assignmentRule endLine inner) ts)
  by_cases hvar : ∃ t ∈ ts.head?, t.kind = .keyword .var
  · obtain ⟨t, ht, hk⟩ := hvar
    obtain ⟨ts, rfl⟩ := List.head?_eq_some_iff.1 ht
    simp only [readStatement, hk]
    exact (readDeclaration_repeated ha t.line ts).cons fun ts => by simp [readStatement, hk]
  by_cases hbrace : ∃ t ∈ ts.head?, t.kind = .leftBrace
  · obtain ⟨t, ht, hk⟩ := hbrace
    obtain ⟨ts, rfl⟩ := List.head?_eq_some_iff.1 ht
    simp only [readStatement, hk]
    refine ((nested_repeated t.line hi fun h =>
      braced_repeated endLine endLine' h.statement ts).map (Statement.block t.line)).cons fun ts => ?_
    simp [readStatement, hk]
  have hv : ∀ t ∈ ts.head?, t.kind ≠ .keyword .var := fun t ht hk => hvar ⟨t, ht, hk⟩
  have hb : ∀ t ∈ ts.head?, t.kind ≠ .leftBrace := fun t ht hk => hbrace ⟨t, ht, hk⟩
  rw [readStatement_of_ne hv hb]
  refine ((ha ts).map Statement.expression).congr_head (fun s h => ?_) fun ts' hts' => ?_
  · obtain ⟨e, he, _⟩ := Outcome.map_eq_ok_iff.1 h
    exact absurd ((assignmentRule endLine inner).progress he) (Nat.lt_irrefl _)
  · exact readStatement_of_ne (hts' ▸ hv) (hts' ▸ hb)

theorem next_repeats (hi : Option.Rel Repeats inner inner') :
    (next endLine inner).Repeats (next endLine' inner') :=
  ⟨factorRule_repeats hi, assignmentRule_repeats hi, statementRule_repeats hi⟩

theorem withRoom_repeats (endLine endLine' room : Nat) :
    (withRoom endLine room).Repeats (withRoom endLine' room) := by
  induction room with
  | zero => exact next_repeats .none
  | succ room ih => exact next_repeats (.some ih)

end Grammar

end Abacus
