import Mathlib.Data.List.Basic
import Abacus.Proofs.Syntax.LookAhead

/-!
Where reading fails. An error other than that of too many levels stands at the first token that no
program can go on with: what was used before it is the beginning of a program, and with the token it
is that of none. The second half is a matter of how far the rules look. For the first half, every rule
that is stuck behind some tokens reads its part of the grammar if these are completed: by a number
where an operand is missing, by the rest of a declaration, and by what closes the open constructs.
-/
namespace Abacus

namespace Outcome

variable {α β : Type}

/-- If reading `ts` has failed, then `f` succeeds on the tokens that were used, if some more are put
behind them, and leaves what follows. When no token was used, the first of these is of a kind where
`f` can start. -/
def CompletedBy (starts stops : Token.Kind → Prop) (f : List Token → Outcome α) (ts : List Token)
    (o : Outcome α) : Prop :=
  ∀ ⦃e rest⦄, o = error e rest → (∀ limit line, e ≠ .nestingTooDeep limit line) →
    ∃ used more, ts = used ++ rest ∧ (used = [] → ∃ t ∈ more.head?, starts t.kind) ∧
      ∀ after, (∀ t ∈ after.head?, stops t.kind) → ∃ a, f (used ++ more ++ after) = ok a after

namespace CompletedBy

variable {starts starts' stops stops' : Token.Kind → Prop} {f f' : List Token → Outcome α}
  {ts : List Token} {o : Outcome α}

theorem ok (a : α) (rest : List Token) : CompletedBy starts stops f ts (ok a rest) :=
  nofun

theorem error_unused {e : ParseError} (more : List Token) (hstart : ∃ t ∈ more.head?, starts t.kind)
    (hf : ∀ after, (∀ t ∈ after.head?, stops t.kind) → ∃ a, f (more ++ after) = Outcome.ok a after) :
    CompletedBy starts stops f ts (error e ts) := by
  rintro _ _ ⟨⟩ _
  exact ⟨[], more, rfl, fun _ => hstart, hf⟩

theorem mono (h : CompletedBy starts stops f ts o) (hs : ∀ kind, starts kind → starts' kind) :
    CompletedBy starts' stops f ts o := by
  intro e rest ho he
  obtain ⟨used, more, hts, hstart, hf⟩ := h ho he
  refine ⟨used, more, hts, fun hused => ?_, hf⟩
  obtain ⟨t, ht, hkind⟩ := hstart hused
  exact ⟨t, ht, hs _ hkind⟩

theorem map (h : CompletedBy starts stops f ts o) (g : α → β) :
    CompletedBy starts stops (fun ts => (f ts).map g) ts (o.map g) := by
  intro e rest ho he
  obtain ⟨used, more, hts, hstart, hf⟩ := h (map_eq_error_iff.1 ho) he
  refine ⟨used, more, hts, hstart, fun after hafter => ?_⟩
  obtain ⟨a, ha⟩ := hf after hafter
  exact ⟨g a, congrArg (Outcome.map g) ha⟩

theorem append (h : CompletedBy starts stops f ts o) (first : List Token) (hfirst : first ≠ [])
    (hf' : ∀ ts, f' (first ++ ts) = f ts) : CompletedBy starts' stops f' (first ++ ts) o := by
  intro e rest ho he
  obtain ⟨used, more, rfl, _, hf⟩ := h ho he
  refine ⟨first ++ used, more, (List.append_assoc ..).symm, ?_, fun after hafter => ?_⟩
  · exact fun hnil => absurd (List.append_eq_nil_iff.1 hnil).1 hfirst
  · rw [List.append_assoc, List.append_assoc, hf', ← List.append_assoc]
    exact hf after hafter

theorem cons (h : CompletedBy starts stops f ts o) {t : Token} (hf' : ∀ ts, f' (t :: ts) = f ts) :
    CompletedBy starts' stops f' (t :: ts) o :=
  h.append [t] (List.cons_ne_nil t []) hf'

theorem congr_of (h : CompletedBy starts stops f ts o)
    (hf' : ∀ used new, ts = used ++ o.rest → (used = [] → ∃ t ∈ new.head?, starts t.kind) →
      f' (used ++ new) = f (used ++ new)) : CompletedBy starts stops f' ts o := by
  intro e rest ho he
  obtain ⟨used, more, hts, hstart, hf⟩ := h ho he
  refine ⟨used, more, hts, hstart, fun after hafter => ?_⟩
  rw [List.append_assoc, hf' used (more ++ after) (by rw [ho]; exact hts), ← List.append_assoc]
  · exact hf after hafter
  · intro hused
    obtain ⟨t, ht, hstart⟩ := hstart hused
    exact ⟨t, List.mem_head?_append_of_mem_head? ht, hstart⟩

/-- A completed list starts with the same token as the list that is stuck, or with a new one. -/
theorem congr_head (h : CompletedBy starts stops f ts o)
    (hf' : ∀ t ts', t ∈ ts.head? ∨ starts t.kind → f' (t :: ts') = f (t :: ts')) :
    CompletedBy starts stops f' ts o := by
  refine h.congr_of fun used new hts hstart => ?_
  cases used with
  | cons t used => exact hf' t (used ++ new) (.inl (by rw [hts]; rfl))
  | nil =>
      obtain ⟨t, ht, hkind⟩ := hstart rfl
      obtain ⟨new, rfl⟩ := List.head?_eq_some_iff.1 ht
      exact hf' t new (.inr hkind)

/-- One rule after another. If the first is stuck, then `closer` does for the second. If the second is
stuck where it starts, then what is put there does not carry the first on. -/
theorem bind {next next' : α → List Token → Outcome β} (hr : RepeatedBy stops f ts o)
    (h : CompletedBy starts stops f ts o) (closer : List Token)
    (hcloser : ∀ after, (∀ t ∈ after.head?, stops' t.kind) →
      (∀ t ∈ (closer ++ after).head?, stops t.kind) ∧
        ∀ a, ∃ b, next' a (closer ++ after) = Outcome.ok b after)
    (hn : ∀ a mid, o = Outcome.ok a mid → CompletedBy starts' stops' (next' a) mid (next a mid))
    (hs : ∀ kind, starts' kind → stops kind)
    (hunused : (∀ a, o ≠ Outcome.ok a ts) ∨ ∀ kind, starts' kind → starts kind) :
    CompletedBy starts stops' (fun ts => (f ts).bind next') ts (o.bind next) := by
  intro e rest ho he
  cases o with
  | error e' rest' =>
      obtain ⟨rfl, rfl⟩ := Outcome.error.inj ho
      obtain ⟨used, more, hts, hstart, hf⟩ := h rfl he
      refine ⟨used, more ++ closer, hts, fun hused => ?_, fun after hafter => ?_⟩
      · obtain ⟨t, ht, hstart⟩ := hstart hused
        exact ⟨t, List.mem_head?_append_of_mem_head? ht, hstart⟩
      · obtain ⟨hstop, hnext⟩ := hcloser after hafter
        obtain ⟨a, ha⟩ := hf (closer ++ after) hstop
        obtain ⟨b, hb⟩ := hnext a
        rw [← List.append_assoc, List.append_assoc (used ++ more)]
        exact ⟨b, (congrArg (Outcome.bind · next') ha).trans hb⟩
  | ok a mid =>
      obtain ⟨used, hts, hrf⟩ := hr
      obtain ⟨used', more, hmid, hstart, hf⟩ := hn a mid rfl ho he
      refine ⟨used ++ used', more, ?_, fun hnil => ?_, fun after hafter => ?_⟩
      · rw [List.append_assoc, ← hmid]
        exact hts
      · obtain ⟨rfl, rfl⟩ := List.append_eq_nil_iff.1 hnil
        obtain hused | hs' := hunused
        · exact absurd (congrArg (Outcome.ok a) hts.symm) (hused a)
        · obtain ⟨t, ht, hkind⟩ := hstart rfl
          exact ⟨t, ht, hs' _ hkind⟩
      · have hadmits : (Outcome.ok a mid).Admits stops (used' ++ more ++ after) := by
          cases used' with
          | cons t used' =>
              rw [hmid]
              exact .inl rfl
          | nil =>
              obtain ⟨t, ht, hkind⟩ := hstart rfl
              refine .inr fun u hu => ?_
              obtain rfl := Option.mem_unique (List.mem_head?_append_of_mem_head? ht) hu
              exact hs _ hkind
        obtain ⟨b, hb⟩ := hf after hafter
        rw [List.append_assoc, List.append_assoc, ← List.append_assoc used']
        exact ⟨b, (congrArg (Outcome.bind · next') (hrf _ hadmits)).trans hb⟩

end CompletedBy

end Outcome

open Outcome

/-- A kind of token that can stand for a missing operand. -/
def Token.Kind.IsInteger (kind : Token.Kind) : Prop :=
  ∃ value, kind = .integer value

theorem Token.Kind.IsInteger.halts {kind : Token.Kind} (h : kind.IsInteger) : kind.Halts := by
  obtain ⟨value, rfl⟩ := h
  exact ⟨rfl, nofun, nofun⟩

namespace Rule

variable {α : Type}

/-- A rule reads its part of the grammar when what is missing is put behind the tokens where it is
stuck. -/
structure Completable (rule : Rule α) : Prop where
  repeats : rule.Repeats rule
  completed : ∀ ts, CompletedBy Token.Kind.IsInteger Token.Kind.Halts rule.run ts (rule.run ts)

/-- A rule uses a token when it succeeds. -/
theorem run_ne_ok (rule : Rule α) (ts : List Token) (a : α) : rule.run ts ≠ .ok a ts :=
  fun h => absurd (rule.progress h) (Nat.lt_irrefl _)

section Chain

variable {level : Level} {operand : Rule Expr}

theorem chainFrom_of_halts {left : Expr} {after : List Token}
    (h : ∀ t ∈ after.head?, t.kind.Halts) : chainFrom level operand left after = .ok left after := by
  refine chainFrom_of_no_operator fun t ht op hop => ?_
  rw [(h t ht).operator] at hop
  cases hop

theorem chainFrom_completed (ho : operand.Completable) (left : Expr) (ts : List Token) :
    CompletedBy Token.Kind.IsInteger Token.Kind.Halts (chainFrom level operand left) ts
      (chainFrom level operand left ts) := by
  induction left, ts using chain_induction level operand with
  | stop left ts hne =>
      rw [chainFrom_of_no_operator hne]
      exact .ok _ _
  | operator left t op ts hop hl ih =>
      rw [chainFrom_cons hop hl]
      exact (CompletedBy.bind (ho.repeats ts) (ho.completed ts) []
        (fun after h => ⟨h, fun a => ⟨_, chainFrom_of_halts h⟩⟩) ih
        (fun _ h => h.halts) (.inr fun _ h => h)).cons (chainFrom_cons hop hl)

theorem Completable.chain (level : Level) (ho : operand.Completable) :
    (Rule.chain level operand).Completable :=
  ⟨ho.repeats.chain level, fun ts =>
    .bind (ho.repeats ts) (ho.completed ts) [] (fun _ h => ⟨h, fun _ => ⟨_, chainFrom_of_halts h⟩⟩)
      (fun left mid _ => chainFrom_completed ho left mid) (fun _ h => h.halts) (.inr fun _ h => h)⟩

end Chain

section Arguments

variable {endLine : Nat} {argument : Rule Expr} {stops : Token.Kind → Prop}

theorem halts_rightParen : Token.Kind.rightParen.Halts :=
  ⟨rfl, nofun, nofun⟩

/-- Where neither a comma nor a parenthesis follows an argument, a parenthesis is missing. -/
theorem argumentsAfter_completed (a : Expr) {ts : List Token}
    (h : ∀ t rest, ts = t :: rest → t.kind = .comma →
      CompletedBy Token.Kind.IsInteger stops (argumentsFrom endLine argument) rest
        (argumentsFrom endLine argument rest)) :
    CompletedBy Token.Kind.Halts stops (argumentsAfter endLine argument a) ts
      (argumentsAfter endLine argument a ts) := by
  have hclose : ∀ e, CompletedBy Token.Kind.Halts stops (argumentsAfter endLine argument a) ts
      (.error e ts) := fun e =>
    .error_unused [⟨.rightParen, 1⟩] ⟨_, rfl, halts_rightParen⟩ fun after _ =>
      ⟨[a], by simp [argumentsAfter]⟩
  cases ts with
  | nil => exact hclose _
  | cons t ts =>
      by_cases hcomma : t.kind = .comma
      · simp only [argumentsAfter, hcomma, ↓reduceIte]
        exact ((h t ts rfl hcomma).map (a :: ·)).cons fun ts => by simp [argumentsAfter, hcomma]
      · simp only [argumentsAfter, hcomma, ↓reduceIte]
        split
        · exact .ok _ _
        · exact hclose _

theorem argumentsFrom_completed (ha : argument.Completable) (ts : List Token) :
    CompletedBy Token.Kind.IsInteger stops (argumentsFrom endLine argument) ts
      (argumentsFrom endLine argument ts) := by
  induction ts using arguments_induction argument with
  | step ts ih =>
      rw [argumentsFrom_eq_bind]
      refine (CompletedBy.bind (ha.repeats ts) (ha.completed ts) [⟨.rightParen, 1⟩]
        (fun after _ => ⟨?_, fun a => ⟨[a], ?_⟩⟩) (fun a mid hmid => ?_) (fun _ h => h)
        (.inl (argument.run_ne_ok ts))).congr_of fun _ _ _ _ => argumentsFrom_eq_bind _
      · rintro t ⟨⟩
        exact halts_rightParen
      · simp [argumentsAfter]
      · exact argumentsAfter_completed a fun t rest hrest _ => ih a t rest (hrest ▸ hmid)

theorem arguments_completed (ha : argument.Completable) (ts : List Token) :
    CompletedBy Token.Kind.IsInteger stops (arguments endLine argument) ts
      (arguments endLine argument ts) := by
  by_cases hclose : ∃ t ∈ ts.head?, t.kind = .rightParen
  · obtain ⟨t, ht, hk⟩ := hclose
    obtain ⟨ts, rfl⟩ := List.head?_eq_some_iff.1 ht
    simp only [arguments, hk, ↓reduceIte]
    exact .ok _ _
  · have hne : ∀ t ∈ ts.head?, t.kind ≠ .rightParen := fun t ht hk => hclose ⟨t, ht, hk⟩
    rw [arguments_of_ne hne]
    refine (argumentsFrom_completed ha ts).congr_head fun t ts' ht => ?_
    refine arguments_of_ne ?_
    rintro _ ⟨⟩
    obtain hhead | ⟨value, hvalue⟩ := ht
    · exact hne t hhead
    · rw [hvalue]
      exact Token.Kind.noConfusion

end Arguments

theorem closing_completed {kind : Token.Kind} {unclosed : Token.Kind → Nat → ParseError}
    {endLine : Nat} {stops : Token.Kind → Prop} (a : α) (ts : List Token) :
    CompletedBy (· = kind) stops (closing kind unclosed endLine a) ts
      (closing kind unclosed endLine a ts) := by
  have hclose : ∀ e, CompletedBy (· = kind) stops (closing kind unclosed endLine a) ts
      (.error e ts) := fun e =>
    .error_unused [⟨kind, 1⟩] ⟨_, rfl, rfl⟩ fun after _ => ⟨a, by simp [closing]⟩
  cases ts with
  | nil => exact hclose _
  | cons t ts =>
      rw [closing]
      split
      · exact .ok _ _
      · exact hclose _

theorem statements_completed {statement : Rule Statement} (hs : statement.Completable)
    (ts : List Token) :
    CompletedBy Token.Kind.IsInteger (endsStatements ·) (statements statement) ts
      (statements statement ts) := by
  induction ts using statements_induction statement with
  | stop ts hend =>
      rw [statements_of_ends hend]
      exact .ok _ _
  | more t ts hk ih =>
      rw [statements_cons hk]
      refine (CompletedBy.bind (hs.repeats (t :: ts)) (hs.completed (t :: ts)) []
        (fun after h => ⟨fun t ht => halts_of_ends (h t ht), fun s => ⟨[s], ?_⟩⟩)
        (fun s mid hmid => (ih s mid hmid).map (s :: ·)) (fun _ h => h.halts)
        (.inr fun _ h => h)).congr_head fun u ts' hu => statements_cons ?_ ts'
      · rw [List.nil_append, statements_of_ends h]
        rfl
      · obtain hhead | ⟨value, hvalue⟩ := hu
        · obtain rfl : t = u := Option.some.inj hhead
          exact hk
        · rw [hvalue]
          rfl

end Rule

namespace Grammar

structure Completable (g : Grammar) : Prop where
  factor : g.factor.Completable
  assignment : g.assignment.Completable
  statement : g.statement.Completable

theorem Completable.repeats {g : Grammar} (h : g.Completable) : g.Repeats g :=
  ⟨h.factor.repeats, h.assignment.repeats, h.statement.repeats⟩

variable {α : Type} {g : Grammar} {endLine : Nat} {inner : Option Grammar}
  {starts stops : Token.Kind → Prop} {ts : List Token}

theorem nested_completed {body : Grammar → List Token → Outcome α} (line : Nat)
    (hi : ∀ g ∈ inner, g.Completable)
    (hb : ∀ {g}, g.Completable → CompletedBy starts stops (body g) ts (body g ts)) :
    CompletedBy starts stops (nested inner line body) ts (nested inner line body ts) := by
  cases inner with
  | some g => exact hb (hi g rfl)
  | none =>
      rintro _ _ ⟨⟩ he
      exact absurd rfl (he _ _)

theorem group_completed (h : g.Completable) (ts : List Token) :
    CompletedBy Token.Kind.IsInteger stops (group endLine g) ts (group endLine g ts) := by
  rw [group_eq_bind]
  refine (CompletedBy.bind (h.assignment.repeats ts) (h.assignment.completed ts) [⟨.rightParen, 1⟩]
    (fun after _ => ⟨?_, fun e => ⟨.group e, ?_⟩⟩)
    (fun e mid _ => Rule.closing_completed _ mid) ?_
    (.inl (g.assignment.run_ne_ok ts))).congr_of fun _ _ _ _ => group_eq_bind _
  · rintro t ⟨⟩
    exact Rule.halts_rightParen
  · simp [Rule.closing]
  · rintro _ rfl
    exact Rule.halts_rightParen

theorem braced_completed {statement : Rule Statement}
    (h : statement.Completable) (ts : List Token) :
    CompletedBy (fun _ => True) stops (braced endLine statement) ts
      (braced endLine statement ts) := by
  rw [braced_eq_bind]
  refine (CompletedBy.bind (Rule.statements_repeated h.repeats ts)
    ((Rule.statements_completed h ts).mono fun _ _ => trivial) [⟨.rightBrace, 1⟩]
    (fun after _ => ⟨?_, fun body => ⟨body, ?_⟩⟩)
    (fun e mid _ => Rule.closing_completed _ mid) ?_
    (.inr fun _ _ => trivial)).congr_of fun _ _ _ _ => braced_eq_bind _
  · rintro t ⟨⟩
    rfl
  · simp [Rule.closing]
  · rintro _ rfl
    rfl

theorem nameOrCall_completed (hi : ∀ g ∈ inner, g.Completable)
    (line : Nat) (name : String) (ts : List Token) :
    CompletedBy Token.Kind.IsInteger stops (nameOrCall endLine inner line name) ts
      (nameOrCall endLine inner line name ts) := by
  by_cases hcall : ∃ t ∈ ts.head?, t.kind = .leftParen
  · obtain ⟨t, ht, hk⟩ := hcall
    obtain ⟨ts, rfl⟩ := List.head?_eq_some_iff.1 ht
    simp only [nameOrCall, hk, ↓reduceIte]
    refine ((nested_completed line hi fun h =>
      Rule.arguments_completed h.assignment ts).map (Expr.call line name)).cons
        fun ts => ?_
    simp [nameOrCall, hk]
  · rw [nameOrCall_of_ne fun t ht hk => hcall ⟨t, ht, hk⟩]
    exact .ok _ _

theorem rel_repeats (hi : ∀ g ∈ inner, g.Completable) : Option.Rel Repeats inner inner := by
  cases inner with
  | none => exact .none
  | some g => exact .some (hi g rfl).repeats

theorem factorRule_completable (hi : ∀ g ∈ inner, g.Completable) :
    (factorRule endLine inner).Completable := by
  refine ⟨factorRule_repeats (rel_repeats hi), fun ts => ?_⟩
  have hmissing : ∀ e, CompletedBy Token.Kind.IsInteger Token.Kind.Halts
      (readFactor endLine inner) ts (.error e ts) := fun e =>
    .error_unused [⟨.integer 0, 1⟩] ⟨_, rfl, 0, rfl⟩ fun after _ => ⟨_, rfl⟩
  change CompletedBy _ _ (readFactor endLine inner) ts (readFactor endLine inner ts)
  cases ts with
  | nil => exact hmissing _
  | cons t ts =>
      rw [readFactor]
      split
      case h_1 hk | h_2 hk =>
        refine ((nested_completed t.line hi fun h => h.factor.completed ts).map _).cons fun ts => ?_
        simp [readFactor, hk]
      case h_3 | h_4 => exact .ok _ _
      case h_5 name hk =>
        refine (nameOrCall_completed hi t.line name ts).cons fun ts => ?_
        simp [readFactor, hk]
      case h_6 hk =>
        refine (nested_completed t.line hi fun h => group_completed h ts).cons
          fun ts => ?_
        simp [readFactor, hk]
      case h_7 | h_8 | h_9 => exact hmissing _

theorem logical_completable {factor : Rule Expr} (hf : factor.Completable) :
    (logical factor).Completable :=
  (((hf.chain .multiplicative).chain .additive).chain .comparison).chain .logical

/-- A single operand is read whatever the room is. -/
theorem assignmentRule_run_of_leads {e : Expr} {after : List Token} (he : e.Leads 0 0 ts after)
    (h : ∀ t ∈ after.head?, t.kind.Halts) :
    (assignmentRule endLine inner).run ts = .ok e after := by
  have hcomplete : (assignmentRule endLine inner).CompleteForAssignments 0 :=
    assignmentRule_complete nofun
  refine hcomplete he ⟨fun t ht op hk => ?_, fun _ t ht => (h t ht).call⟩ fun t ht => (h t ht).target
  have hop := (h t ht).operator
  rw [Token.Kind.binOp?_eq_some_iff.2 hk] at hop
  cases hop

/-- What is completed without a target is read without one. -/
theorem readAssignment_completed {e : ParseError} {rest : List Token} (htarget : ¬ HasTarget ts)
    (h : CompletedBy Token.Kind.IsInteger Token.Kind.Halts
      (logical (factorRule endLine inner)).run ts (.error e rest)) :
    CompletedBy Token.Kind.IsInteger Token.Kind.Halts (assignmentRule endLine inner).run ts
      (.error e rest) := by
  rintro _ _ ⟨⟩ he
  obtain ⟨used, more, rfl, hstart, hf⟩ := h rfl he
  by_cases hname : ∃ t name, used = [t] ∧ t.kind = .identifier name
  · -- No rule is stuck right behind a name, but it is easier to see that the name is enough.
    obtain ⟨t, name, rfl, hk⟩ := hname
    refine ⟨[t], [], rfl, nofun, fun after hafter => ⟨.name t.line name, ?_⟩⟩
    exact assignmentRule_run_of_leads
      ⟨.cons ⟨hk, rfl⟩ .nil, trivial, Nat.zero_le _, Nat.le_refl _⟩ hafter
  · refine ⟨used, more, rfl, hstart, fun after hafter => ?_⟩
    obtain ⟨a, ha⟩ := hf after hafter
    refine ⟨a, Eq.trans (readAssignment_of_not_hasTarget ?_) ha⟩
    rw [List.append_assoc]
    refine not_hasTarget_append htarget (fun hused t ht name hk => ?_) fun t name hused hk =>
      absurd ⟨t, name, hused, hk⟩ hname
    obtain ⟨u, hu, value, hvalue⟩ := hstart hused
    obtain rfl := Option.mem_unique (List.mem_head?_append_of_mem_head? hu) ht
    rw [hvalue] at hk
    cases hk

theorem assignmentRule_completable (hi : ∀ g ∈ inner, g.Completable) :
    (assignmentRule endLine inner).Completable := by
  refine ⟨assignmentRule_repeats (rel_repeats hi), fun ts => ?_⟩
  by_cases htarget : HasTarget ts
  · obtain ⟨name, line, line', mid, rfl⟩ := htarget
    exact ((nested_completed line hi fun h => h.assignment.completed mid).map
      (Expr.assign line name)).append [⟨.identifier name, line⟩, ⟨.assign, line'⟩]
        (List.cons_ne_nil _ _) fun ts => rfl
  · have hlogical : (logical (factorRule endLine inner)).Completable :=
      logical_completable (factorRule_completable hi)
    have hrun : (assignmentRule endLine inner).run ts = _ := readAssignment_of_not_hasTarget htarget
    rw [hrun]
    cases ho : (logical (factorRule endLine inner)).run ts with
    | ok e rest => exact .ok _ _
    | error e rest => exact readAssignment_completed htarget (ho ▸ hlogical.completed ts)

theorem readDeclaration_completed {assignment : Rule Expr} (ha : assignment.Completable)
    (hvalue : ∀ {after}, (∀ t ∈ after.head?, t.kind.Halts) →
      assignment.run (⟨.integer 0, 1⟩ :: after) = .ok (.number 1 0) after)
    (line : Nat) (ts : List Token) :
    CompletedBy (fun _ => True) Token.Kind.Halts (readDeclaration assignment line) ts
      (readDeclaration assignment line ts) := by
  have hname : ∀ e, CompletedBy (fun _ => True) Token.Kind.Halts (readDeclaration assignment line)
      ts (.error e ts) := fun e =>
    .error_unused [⟨.identifier "x", 1⟩, ⟨.assign, 1⟩, ⟨.integer 0, 1⟩] ⟨_, rfl, trivial⟩
      fun after hafter => ⟨.declare line "x" (.number 1 0), by
        simp [readDeclaration, hvalue hafter, Outcome.map]⟩
  cases ts with
  | nil => exact hname _
  | cons t ts =>
      by_cases hk : ∃ name, t.kind = .identifier name
      · obtain ⟨kind, line'⟩ := t
        obtain ⟨name, rfl : kind = _⟩ := hk
        have hassign : ∀ e ts, CompletedBy (fun _ => True) Token.Kind.Halts
            (fun ts => readDeclaration assignment line (⟨.identifier name, line'⟩ :: ts)) ts
            (.error e ts) := fun e ts =>
          .error_unused [⟨.assign, 1⟩, ⟨.integer 0, 1⟩] ⟨_, rfl, trivial⟩
            fun after hafter => ⟨.declare line name (.number 1 0), by
              simp [readDeclaration, hvalue hafter, Outcome.map]⟩
        cases ts with
        | nil => exact (hassign _ []).cons fun ts => rfl
        | cons t ts =>
            by_cases hk : t.kind = .assign
            · simp only [readDeclaration, hk, ↓reduceIte]
              refine ((ha.completed ts).map (Statement.declare line name)).append
                [⟨.identifier name, line'⟩, t] (List.cons_ne_nil _ _) fun ts => ?_
              simp [readDeclaration, hk]
            · simp only [readDeclaration, hk, ↓reduceIte]
              exact (hassign _ (t :: ts)).cons fun ts => rfl
      · rw [readDeclaration_of_ne fun name h => hk ⟨name, h⟩]
        exact hname _

theorem statementRule_completable (hi : ∀ g ∈ inner, g.Completable) :
    (statementRule endLine inner).Completable := by
  refine ⟨statementRule_repeats (rel_repeats hi), fun ts => ?_⟩
  have ha : (assignmentRule endLine inner).Completable :=
    assignmentRule_completable hi
  change CompletedBy _ _ (readStatement endLine inner (assignmentRule endLine inner)) ts
    (readStatement endLine inner (assignmentRule endLine inner) ts)
  by_cases hvar : ∃ t ∈ ts.head?, t.kind = .keyword .var
  · obtain ⟨t, ht, hk⟩ := hvar
    obtain ⟨ts, rfl⟩ := List.head?_eq_some_iff.1 ht
    simp only [readStatement, hk]
    have hvalue : ∀ {after}, (∀ t ∈ after.head?, t.kind.Halts) →
        (assignmentRule endLine inner).run (⟨.integer 0, 1⟩ :: after) = .ok (.number 1 0) after :=
      fun h => assignmentRule_run_of_leads
        ⟨.cons ⟨.inl rfl, rfl⟩ .nil, trivial, Nat.zero_le _, Nat.le_refl _⟩ h
    refine (readDeclaration_completed ha hvalue t.line ts).cons fun ts => ?_
    simp [readStatement, hk]
  by_cases hbrace : ∃ t ∈ ts.head?, t.kind = .leftBrace
  · obtain ⟨t, ht, hk⟩ := hbrace
    obtain ⟨ts, rfl⟩ := List.head?_eq_some_iff.1 ht
    simp only [readStatement, hk]
    refine ((nested_completed t.line hi fun h =>
      braced_completed h.statement ts).map (Statement.block t.line)).cons fun ts => ?_
    simp [readStatement, hk]
  have hv : ∀ t ∈ ts.head?, t.kind ≠ .keyword .var := fun t ht hk => hvar ⟨t, ht, hk⟩
  have hb : ∀ t ∈ ts.head?, t.kind ≠ .leftBrace := fun t ht hk => hbrace ⟨t, ht, hk⟩
  rw [readStatement_of_ne hv hb]
  refine ((ha.completed ts).map Statement.expression).congr_head fun t ts' ht => ?_
  refine readStatement_of_ne ?_ ?_
  all_goals
    rintro _ ⟨⟩
    obtain hhead | ⟨value, hvalue⟩ := ht
    · first | exact hv t hhead | exact hb t hhead
    · rw [hvalue]
      exact Token.Kind.noConfusion

theorem next_completable (hi : ∀ g ∈ inner, g.Completable) :
    (next endLine inner).Completable :=
  ⟨factorRule_completable hi, assignmentRule_completable hi, statementRule_completable hi⟩

theorem withRoom_completable (endLine room : Nat) : (withRoom endLine room).Completable := by
  induction room with
  | zero => exact next_completable nofun
  | succ room ih =>
      apply next_completable
      rintro g ⟨⟩
      exact ih

/-- Where statements end does not depend on how the end of the list would be reported. -/
theorem statements_withRoom {endLine room : Nat} {body : List Statement} {rest : List Token}
    (h : Rule.statements (withRoom endLine room).statement ts = .ok body rest) (endLine' : Nat) :
    Rule.statements (withRoom endLine' room).statement ts = .ok body rest := by
  obtain ⟨used, hts, hf⟩ :=
    Rule.statements_repeated (withRoom_repeats endLine endLine' room).statement ts
  rw [h] at hts hf
  rw [hts]
  exact hf rest (.inl rfl)

end Grammar

theorem parse_eq_error {ts rest : List Token} {e : ParseError}
    (h : Rule.statements (Grammar.withRoom (Cursor.endLine ts) nestingLimit).statement ts =
      .error e rest) : parse ts = .error e := by
  simp [parse, Production.read, Production.readWith, h, Outcome.map]

/-- A cursor that fails to read a block stands at the first of the tokens that are left. -/
theorem Cursor.statements_of_read_block {ts : List Token} {e : ParseError} {c : Cursor}
    (h : (Cursor.start ts).read .block = (.error e, c)) :
    ∃ rest, Rule.statements (Grammar.withRoom (Cursor.endLine ts) nestingLimit).statement ts =
      .error e rest ∧ c.position = ts.length - rest.length := by
  simp only [Cursor.read, Cursor.start, Cursor.rest, List.drop_zero, Nat.sub_zero, Production.read,
    Production.readWith, Prod.mk.injEq] at h
  obtain ⟨hresult, rfl⟩ := h
  cases ho : Rule.statements (Grammar.withRoom (Cursor.endLine ts) nestingLimit).statement ts with
  | ok body rest => simp [ho, Outcome.map, Outcome.result] at hresult
  | error e' rest =>
      simp only [ho, Outcome.map, Outcome.result, Except.error.injEq] at hresult
      exact ⟨rest, by rw [hresult], rfl⟩

/-- Reading fails as early as it can. What stands before the cursor is the beginning of a program, and
with the token under the cursor it is that of none: whatever follows, the error is the same. -/
theorem Cursor.read_block_error {ts : List Token} {e : ParseError} {c : Cursor}
    (h : (Cursor.start ts).read .block = (.error e, c))
    (he : ∀ limit line, e ≠ .nestingTooDeep limit line) :
    (∃ more b, parse (ts.take c.position ++ more) = .ok b) ∧
    (c.position < ts.length → ∀ more, parse (ts.take (c.position + 1) ++ more) = .error e) := by
  obtain ⟨rest, ho, hposition⟩ := statements_of_read_block h
  have hg := Grammar.withRoom_completable (Cursor.endLine ts) nestingLimit
  obtain ⟨used, more, rfl, -, hf⟩ := Rule.statements_completed hg.statement ts ho he
  have hused : c.position = used.length := by simp [hposition]
  refine ⟨⟨more, ?_⟩, fun hlt more => ?_⟩
  · obtain ⟨body, hbody⟩ := hf [] nofun
    rw [List.append_nil] at hbody
    rw [hused, List.take_left]
    refine ⟨⟨_, body⟩, parse_eq_ok_iff.2 ⟨rfl, [], .inl rfl, ?_⟩⟩
    exact Grammar.statements_withRoom hbody _
  · obtain ⟨t, rest, rfl⟩ : ∃ t mid, rest = t :: mid :=
      List.exists_cons_of_ne_nil fun hnil => by simp [hused, hnil] at hlt
    have htake : (used ++ t :: rest).take (c.position + 1) ++ more = used ++ t :: more := by
      rw [hused, List.take_length_add_append, List.append_assoc]
      rfl
    rw [htake]
    -- The end of the new list may be on another line, but it is never reached.
    obtain ⟨used', hused', hf'⟩ := Rule.statements_repeated (Grammar.withRoom_repeats
      (Cursor.endLine (used ++ t :: rest)) (Cursor.endLine (used ++ t :: more)) nestingLimit).statement
      (used ++ t :: rest)
    rw [ho] at hused' hf'
    obtain rfl := List.append_cancel_right hused'
    exact parse_eq_error (hf' (t :: more) ⟨t, rfl, rfl⟩)

/-- An argument is missing inside a call inside a block. -/
theorem Cursor.read_block_error_argument :
    let ts : List Token := [⟨.leftBrace, 1⟩, ⟨.identifier "f", 1⟩, ⟨.leftParen, 1⟩, ⟨.integer 1, 2⟩,
      ⟨.comma, 2⟩, ⟨.rightBrace, 3⟩, ⟨.eof, 3⟩]
    (Cursor.start ts).read .block = (.error (.unexpectedToken .rightBrace 3), ⟨ts, 5, 0⟩) ∧
    (∃ more b, parse (ts.take 5 ++ more) = .ok b) ∧
    ∀ more, parse (ts.take 6 ++ more) = .error (.unexpectedToken .rightBrace 3) := by
  intro ts
  have h : (Cursor.start ts).read .block = (.error (.unexpectedToken .rightBrace 3), ⟨ts, 5, 0⟩) := by
    with_unfolding_all rfl
  obtain ⟨hbegin, herror⟩ := read_block_error h nofun
  exact ⟨h, hbegin, herror (by decide)⟩

end Abacus
