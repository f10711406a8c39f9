import Abacus.Proofs.Syntax.LookAhead

/-!
How far a cursor looks. Whatever is read at a cursor, and however it ends, no token behind the one that the
cursor ends at has a say in it, neither in the tree or the error nor in the place. As long as a token is
left, that goes for the line of the last token too: only the end of the list is reported on it.
-/
namespace Abacus

namespace Outcome

variable {α β : Type} {stops : Token.Kind → Prop} {f : List Token → Outcome α} {ts : List Token}
  {o : Outcome α}

@[simp] theorem rest_map (o : Outcome α) (g : α → β) : (o.map g).rest = o.rest := by
  cases o <;> rfl

@[simp] theorem rest_leaving (o : Outcome α) (rest : List Token) : (o.leaving rest).rest = rest := by
  cases o <;> rfl

@[simp] theorem result_leaving (o : Outcome α) (rest : List Token) :
    (o.leaving rest).result = o.result := by
  cases o <;> rfl

theorem map_leaving (o : Outcome α) (rest : List Token) (g : α → β) :
    (o.leaving rest).map g = (o.map g).leaving rest := by
  cases o <;> rfl

/-- The outcome of reading `ts` is what `f` repeats on every list with the same tokens up to the first of
those that are left. -/
def SeenBy (f : List Token → Outcome α) (ts : List Token) (o : Outcome α) : Prop :=
  ∃ used, ts = used ++ o.rest ∧
    ∀ t ∈ o.rest.head?, ∀ new, f (used ++ t :: new) = o.leaving (t :: new)

/-- The first token that is left can always stand for itself. -/
theorem RepeatedBy.seen (h : RepeatedBy stops f ts o) : SeenBy f ts o := by
  obtain ⟨used, hts, hf⟩ := h
  refine ⟨used, hts, fun t ht new => hf (t :: new) ?_⟩
  cases o with
  | ok a rest => exact .inl (Option.mem_def.1 ht).symm
  | error e rest => exact ⟨t, ht, rfl⟩

end Outcome

open Outcome

theorem Production.readWith_seen {α : Type} (p : Production α) {g g' : Grammar} (h : g.Repeats g')
    (endLine endLine' : Nat) (ts : List Token) :
    SeenBy (p.readWith g' endLine') ts (p.readWith g endLine ts) := by
  have hm := h.factor.chain .multiplicative
  have ha := hm.chain .additive
  have hc := ha.chain .comparison
  cases p with
  | block =>
      -- A block carries the line of its first token, which is among the tokens that are seen.
      obtain ⟨used, hts, hf⟩ := (Rule.statements_repeated h.statement ts).seen
      simp only [SeenBy, readWith, rest_map]
      refine ⟨used, hts, fun t ht new => ?_⟩
      have hline : Grammar.lineAt endLine' (used ++ t :: new) = Grammar.lineAt endLine ts := by
        obtain ⟨rest, hrest⟩ := List.head?_eq_some_iff.1 ht
        rw [hts, hrest]
        cases used <;> rfl
      rw [hf t ht new, hline, map_leaving]
  | braced line =>
      have hbody : RepeatedBy (fun _ => True) (Grammar.braced endLine' g'.statement) ts _ :=
        Grammar.braced_repeated endLine endLine' h.statement ts
      exact (hbody.map _).seen
  | statement => exact (h.statement ts).seen
  | assignment => exact (h.assignment ts).seen
  | logical => exact (hc.chain .logical ts).seen
  | comparison => exact (hc ts).seen
  | additive => exact (ha ts).seen
  | multiplicative => exact (hm ts).seen
  | factor => exact (h.factor ts).seen

/-- One token behind those that are used is all that is looked at. What is read from one list is read from
every other that has the same tokens up to the place of the cursor, and the cursor ends at the same
place. -/
theorem Cursor.read_of_agree {α : Type} {p : Production α} {ts ts' : List Token}
    {result : Except ParseError α} {c : Cursor} (h : (start ts).read p = (result, c))
    (hlt : c.position < ts.length) (hagree : ∀ i ≤ c.position, ts'[i]? = ts[i]?) :
    (start ts').read p = (result, { c with tokens := ts' }) := by
  obtain ⟨used, hts, hf⟩ := p.readWith_seen (Grammar.withRoom_repeats (endLine ts) (endLine ts')
    nestingLimit) (endLine ts) (endLine ts') ts
  simp only [read, start, rest, List.drop_zero, Nat.sub_zero, Production.read, Prod.mk.injEq] at h ⊢
  generalize p.readWith _ (endLine ts) ts = o at h hts hf
  obtain ⟨rfl, rfl⟩ := h
  obtain ⟨t, rest, hrest⟩ : ∃ t rest, o.rest = t :: rest :=
    List.exists_cons_of_ne_nil fun hnil => by simp [hnil] at hlt
  have hused : ts.length - o.rest.length = used.length := by simp [congrArg List.length hts]
  rw [hused] at hagree ⊢
  rw [hts, hrest] at hagree
  have hprefix : used ++ [t] <+: ts' := by
    refine List.prefix_iff_getElem?.2 fun i hi => ?_
    have hle : i ≤ used.length := by
      rw [List.length_append, List.length_singleton] at hi
      omega
    rw [hagree i hle, List.append_cons used t rest, List.getElem?_append_left hi,
      List.getElem?_eq_getElem hi]
  obtain ⟨new, hnew⟩ := hprefix
  obtain rfl : used ++ t :: new = ts' := (List.append_cons used t new).trans hnew
  rw [hf t (by simp [hrest]) new]
  simp

/-- An assignment that is none, since the name behind the parenthesis is compared with a number: what is behind
the faulty token may be anything, also tokens on other lines. -/
theorem Cursor.read_of_agree_compared :
    let ts : List Token := [⟨.identifier "f", 1⟩, ⟨.leftParen, 1⟩, ⟨.identifier "x", 2⟩, ⟨.equal, 2⟩,
      ⟨.integer 1, 3⟩, ⟨.rightBrace, 3⟩, ⟨.rightParen, 9⟩]
    (start ts).read .assignment = (.error (.unclosedParen .rightBrace 3), ⟨ts, 5, 0⟩) ∧
      ∀ more, let ts' := ts.take 6 ++ more
        (start ts').read .assignment = (.error (.unclosedParen .rightBrace 3), ⟨ts', 5, 0⟩) := by
  intro ts
  have h : (start ts).read .assignment = (.error (.unclosedParen .rightBrace 3), ⟨ts, 5, 0⟩) := by
    with_unfolding_all rfl
  refine ⟨h, fun more => read_of_agree h (by decide) fun i hi => ?_⟩
  have hlt : i < 6 := Nat.lt_succ_of_le hi
  have hlength : (ts.take 6).length = 6 := rfl
  rw [List.getElem?_append_left (hlength ▸ hlt), List.getElem?_take_of_lt hlt]

end Abacus
