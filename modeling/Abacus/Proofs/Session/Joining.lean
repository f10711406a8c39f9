import Abacus.Proofs.Eval.Lines
import Abacus.Proofs.Syntax.Completeness
import Abacus.Proofs.Syntax.Soundness
import Abacus.Proofs.Token.Seams
import Abacus.Session

/-!
Running a text in one piece or in two. A text can be cut at a line feed unless the token behind it
carries on the statement before it. Where it does not, the statements of the whole are those of the
first part followed by those of the second on later lines, and so the whole does what the two parts
do one after the other.
-/
namespace Abacus

namespace Token

/-- The tokens of a text, its end not counted. -/
def significant (ts : List Token) : List Token :=
  ts.filter (·.kind ≠ .eof)

/-- A token that is read as part of a statement that could end with the token before it: a minus sign
subtracts unless a block ends there, and a parenthesis opens the arguments of a name. -/
def CarriesOn (t u : Token) : Prop :=
  t.kind ≠ .rightBrace ∧ u.kind = .minus ∨ (∃ x, t.kind = .identifier x) ∧ u.kind = .leftParen

theorem significant_append_eof {body : List Token} {line : Nat} (h : ∀ t ∈ body, t.kind ≠ .eof) :
    significant (body ++ [⟨.eof, line⟩]) = body := by
  simpa [significant, List.filter_append, List.filter_eq_self] using h

end Token

namespace Statement

variable {room : Nat} {as bs : List Statement} {ts us : List Token}

theorem standsApart_of_spells {s t : Statement} {rest : List Token} (hs : Spells s.yield ts [])
    (ht : Spells t.yield us rest)
    (h : ∀ x ∈ ts.getLast?, ∀ y ∈ us.head?, ¬ x.CarriesOn y) : s.StandsApart t := by
  obtain ⟨init, x, rfl, hx, hname⟩ := ends_of_spells hs
  obtain ⟨y, mid, rfl, hy⟩ := starts_of_spells ht
  have hxy : ¬ x.CarriesOn y := h x (by simp) y rfl
  refine (stopsAt_iff_standsApart ht).1 ⟨fun hb u hu op hop => ?_, fun he u hu hp => ?_⟩
  · obtain rfl : y = u := by simpa using hu
    have hends : x.kind.endsExpr := by simpa [hb] using hx
    refine hxy (.inl ⟨fun hr => ?_, Token.Kind.eq_minus_of_startsStatement hy hop⟩)
    rw [hr] at hends
    cases hends
  · obtain rfl : y = u := by simpa using hu
    exact hxy (.inr ⟨hname he, hp⟩)

/-- The last of some statements is spelled by the last tokens. -/
theorem spells_getLast {s : Statement} (h : Spells (yieldAll as) ts []) (hs : s ∈ as.getLast?) :
    ∃ before mid, ts = before ++ mid ∧ Spells s.yield mid [] := by
  obtain ⟨as, rfl⟩ := List.getLast?_eq_some_iff.1 hs
  rw [yieldAll_append] at h
  obtain ⟨mid, has, hlast⟩ := spells_append_iff.1 h
  obtain ⟨before, rfl, _⟩ := spells_iff.1 has
  refine ⟨before, mid, rfl, ?_⟩
  simpa [yieldAll] using hlast

theorem getLast?_ne_eof_of_spells (h : Spells (yieldAll as) ts []) :
    ∀ t ∈ ts.getLast?, t.kind ≠ .eof := by
  intro t ht hk
  cases hlast : as.getLast? with
  | none =>
      obtain rfl := List.getLast?_eq_none_iff.1 hlast
      obtain rfl := spells_nil_iff.1 h
      cases ht
  | some s =>
      obtain ⟨before, mid, rfl, hs⟩ := spells_getLast h hlast
      obtain ⟨init, x, rfl, hx, _⟩ := ends_of_spells hs
      obtain rfl : x = t := by simpa using ht
      rw [hk] at hx
      obtain hx | ⟨_, hx⟩ := hx <;> cases hx

theorem LeadAll.append (ha : LeadAll room as ts []) (hb : LeadAll room bs us [])
    (h : ∀ x ∈ ts.getLast?, ∀ y ∈ us.head?, ¬ x.CarriesOn y) :
    LeadAll room (as ++ bs) (ts ++ us) [] := by
  have hseam : ∀ s ∈ as.getLast?, ∀ t ∈ bs.head?, s.StandsApart t := by
    intro s hs t ht
    obtain ⟨before, mid, rfl, hlast⟩ := spells_getLast ha.spells hs
    obtain ⟨bs, rfl⟩ := List.head?_eq_some_iff.1 ht
    obtain ⟨_, hfirst, _⟩ := spells_append_iff.1 hb.spells
    refine standsApart_of_spells hlast hfirst fun x hx => h x ?_
    simp [List.getLast?_append, Option.mem_def.1 hx]
  refine ⟨?_, (layeredAll_append as bs).2 ⟨ha.layered, hb.layered⟩,
    (separatedAll_append as bs).2 ⟨ha.separated, hb.separated, hseam⟩, ?_⟩
  · rw [yieldAll_append]
    exact (spells_iff.2 ⟨ts, rfl, ha.spells⟩).append hb.spells
  · rw [nestAll_append]
    exact Nat.max_le.2 ⟨ha.nest_le, hb.nest_le⟩

theorem LeadAll.mapLines (r : Nat → Nat) (h : LeadAll room as ts []) :
    LeadAll room (mapLinesAll r as) (ts.map (·.mapLine r)) [] := by
  refine ⟨?_, (layeredAll_mapLines r as).2 h.layered, (separatedAll_mapLines r as).2 h.separated, ?_⟩
  · rw [yieldAll_mapLines]
    exact h.spells.mapLines r
  · rw [nestAll_mapLines]
    exact h.nest_le

end Statement

/-- Before an `eof` stands a program of the grammar, and nothing else. -/
theorem parse_append_eof_iff {ts : List Token} {line : Nat} {b : Block} :
    parse (ts ++ [⟨.eof, line⟩]) = .ok b ↔
      b.line = (ts.head?.map Token.line).getD line ∧
        Statement.LeadAll nestingLimit b.statements ts [] := by
  rw [parse_eq_ok_iff]
  refine and_congr ?_ ?_
  · cases ts <;> rfl
  constructor
  · rintro ⟨tail, htail, hbody⟩
    obtain ⟨hall, _⟩ := Rule.statements_sound (Grammar.withRoom_sound _ _).statement hbody
    refine { hall with spells := ?_ }
    obtain ⟨used, hused, hspells⟩ := spells_iff.1 hall.spells
    obtain rfl | ⟨line', rfl⟩ := htail
    · rw [List.append_nil] at hused
      subst hused
      exact absurd rfl (Statement.getLast?_ne_eof_of_spells hspells ⟨.eof, line⟩ (by simp))
    · obtain rfl := List.append_inj_left' hused rfl
      exact hspells
  · intro h
    refine ⟨[⟨.eof, line⟩], .inr ⟨line, rfl⟩, ?_⟩
    apply Rule.statements_complete (Grammar.withRoom_complete _ _).statement
    · exact { h with spells := spells_iff.2 ⟨ts, rfl, h.spells⟩ }
    · simp [Rule.endsStatements]

/-- Changes an error of evaluation, but none of reading. -/
def Error.mapRuntime (f : RuntimeError → RuntimeError) : Error → Error
  | runtime cause => runtime (f cause)
  | e => e

theorem Statement.evalFrom_append (last : Option Value) (as bs : List Statement) :
    evalFrom last (as ++ bs) = evalFrom last as >>= fun v => evalFrom v bs := by
  induction as generalizing last with
  | nil => simp [evalFrom]
  | cons s as ih => simp [evalFrom, ih]

theorem Token.tokenize_append {a b : String} {as bs : List Token} {line line' : Nat}
    (ha : tokenize a = .ok (as ++ [⟨.eof, line⟩])) (hb : tokenize b = .ok (bs ++ [⟨.eof, line'⟩])) :
    tokenize (a ++ "\n" ++ b) =
      .ok (as ++ bs.map (·.mapLine (· + (a.toList.count '\n' + 1))) ++
        [⟨.eof, line' + (a.toList.count '\n' + 1)⟩]) := by
  rw [tokenize_newline, ha, hb]
  dsimp only
  rw [List.dropLast_concat, List.append_assoc]
  exact congrArg (fun ts => Except.ok (as ++ ts)) List.map_append

section Seam

variable {a b : String} {ts us : List Token} {p q : Block}

/-- A text that can be cut at a line feed spells the statements of both parts. -/
theorem exists_parse_append (hts : Token.tokenize a = .ok ts) (hp : parse ts = .ok p)
    (hus : Token.tokenize b = .ok us) (hq : parse us = .ok q)
    (hseam : ∀ t ∈ (Token.significant ts).getLast?, ∀ u ∈ (Token.significant us).head?,
      ¬ t.CarriesOn u) :
    ∃ vs line, Token.tokenize (a ++ "\n" ++ b) = .ok vs ∧
      parse vs = .ok ⟨line, p.statements ++
        Statement.mapLinesAll (· + (a.toList.count '\n' + 1)) q.statements⟩ := by
  obtain ⟨ts, rfl, hts'⟩ := Token.exists_of_lex hts
  obtain ⟨us, rfl, hus'⟩ := Token.exists_of_lex hus
  rw [Token.significant_append_eof hts', Token.significant_append_eof hus'] at hseam
  obtain ⟨_, hp⟩ := parse_append_eof_iff.1 hp
  obtain ⟨_, hq⟩ := parse_append_eof_iff.1 hq
  refine ⟨_, _, Token.tokenize_append hts hus, parse_append_eof_iff.2 ⟨rfl, ?_⟩⟩
  refine hp.append (hq.mapLines _) fun t ht u' hu' => ?_
  rw [List.head?_map] at hu'
  obtain ⟨u, hu, rfl⟩ := Option.map_eq_some_iff.1 hu'
  exact hseam t ht u hu

/-- What the evaluation of a program ends with, as a run. -/
def Run.ofResult {α : Type} : EStateM.Result RuntimeError World α → Run α
  | .ok a w => ⟨.ok a, w⟩
  | .error e w => ⟨.error (.runtime e), w⟩

theorem Block.ofSource_eq_ok (hts : Token.tokenize a = .ok ts) (hp : parse ts = .ok p) :
    ofSource a = .ok p := by
  simp only [ofSource, reading, hts, hp]

/-- A text that spells a program is run by evaluating the program, and any other does nothing. -/
theorem Session.run_eq (s : Session) (source : String) :
    s.run source =
      match Block.ofSource source with
      | .error e => ⟨.error e, ⟨s.context, "", (Block.reading source).2⟩⟩
      | .ok p => Run.ofResult (p.evalProgram ⟨s.context, "", (Block.reading source).2⟩) := by
  rw [run, Block.ofSource]
  obtain ⟨program, events⟩ := Block.reading source
  cases program with
  | error e => rfl
  | ok p =>
      dsimp only
      cases p.evalProgram ⟨s.context, "", events⟩ <;> rfl

theorem Session.exists_run_eq (s : Session) (h : Block.ofSource a = .ok p) :
    ∃ w : World, w.context = s.context ∧ w.output = "" ∧
      s.run a = Run.ofResult (Statement.evalFrom none p.statements w) := by
  refine ⟨⟨s.context, "", (Block.reading a).2⟩, rfl, rfl, ?_⟩
  rw [run_eq, h]
  rfl

/-- Both runs start in the same world, up to what has happened, and the joint one goes on with the
statements of the second part. -/
theorem Session.exists_run_append {s : Session} (hlines : s.context.IgnoresLines)
    (hts : Token.tokenize a = .ok ts) (hp : parse ts = .ok p)
    (hus : Token.tokenize b = .ok us) (hq : parse us = .ok q)
    (hseam : ∀ t ∈ (Token.significant ts).getLast?, ∀ u ∈ (Token.significant us).head?,
      ¬ t.CarriesOn u) :
    ∃ w w', World.Continues "" w w' ∧
      s.run a = Run.ofResult (Statement.evalFrom none p.statements w) ∧
      s.run (a ++ "\n" ++ b) = Run.ofResult ((Statement.evalFrom none p.statements >>= fun v =>
        Statement.evalFrom v
          (Statement.mapLinesAll (· + (a.toList.count '\n' + 1)) q.statements)) w') := by
  obtain ⟨vs, line, hvs, hr⟩ := exists_parse_append hts hp hus hq hseam
  obtain ⟨w, hcontext, houtput, hfirst⟩ := s.exists_run_eq (Block.ofSource_eq_ok hts hp)
  obtain ⟨w', hcontext', houtput', hjoint⟩ := s.exists_run_eq (Block.ofSource_eq_ok hvs hr)
  rw [Statement.evalFrom_append] at hjoint
  refine ⟨w, w', ⟨hcontext'.trans hcontext.symm, ?_, hcontext ▸ hlines⟩, hfirst, hjoint⟩
  rw [houtput, houtput']
  rfl

/-- Going on with the second part, after the first has ended well, is like running it in the session
that the first has left. Its lines are further down, and what the first has printed comes before. -/
theorem Session.run_continues {lines : Nat} {v : Option Value} {u u' : World}
    (hu : World.Continues "" u u') (hus : Token.tokenize b = .ok us) (hq : parse us = .ok q) :
    let second := (Session.after (Run.ofResult (.ok v u))).run b
    let joint := Run.ofResult
      (Statement.evalFrom v (Statement.mapLinesAll (· + lines) q.statements) u')
    joint.result = (if q.statements.isEmpty then .ok v
        else second.result.mapError (.mapRuntime (·.mapLine (· + lines)))) ∧
      joint.world.context = second.world.context ∧
      joint.world.output = u.output ++ second.world.output := by
  obtain ⟨w, hcontext, houtput, hsecond⟩ :=
    (Session.after (Run.ofResult (.ok v u))).exists_run_eq (Block.ofSource_eq_ok hus hq)
  have hw : World.Continues u.output w u' := by
    refine ⟨hu.context_eq.trans hcontext.symm, ?_, hcontext ▸ hu.ignoresLines⟩
    simpa [houtput] using hu.output_eq
  have hagree := Statement.simulates_mapLinesAll (· + lines) u.output v q.statements hw
  dsimp only
  rw [hsecond]
  cases hstatements : q.statements with
  | nil => exact ⟨rfl, hw.context_eq, hw.output_eq⟩
  | cons t rest =>
      -- The value of the first part is forgotten as soon as a statement follows.
      have hvalue : Statement.evalFrom v (t :: rest) = Statement.evalFrom none (t :: rest) := rfl
      rw [hstatements, hvalue] at hagree
      generalize Statement.evalFrom none (t :: rest) w = result at hagree ⊢
      generalize Statement.evalFrom v (Statement.mapLinesAll _ (t :: rest)) u' = result' at hagree ⊢
      cases hagree with
      | ok hu => exact ⟨rfl, hu.context_eq, hu.output_eq⟩
      | error hu => exact ⟨rfl, hu.context_eq, hu.output_eq⟩

/-- A text that can be cut at a line feed does what its two parts do one after the other. -/
theorem Session.run_append {s : Session}
    (hfunctions : ∀ name, s.context.function? name = Context.withBuiltins.function? name)
    (hts : Token.tokenize a = .ok ts) (hp : parse ts = .ok p)
    (hus : Token.tokenize b = .ok us) (hq : parse us = .ok q)
    (hseam : ∀ t ∈ (Token.significant ts).getLast?, ∀ u ∈ (Token.significant us).head?,
      ¬ t.CarriesOn u) :
    let first := s.run a
    let second := (after first).run b
    let joint := s.run (a ++ "\n" ++ b)
    (∀ e, first.result = .error e →
      joint.result = .error e ∧ joint.world.context = first.world.context ∧
        joint.world.output = first.world.output) ∧
    (∀ v, first.result = .ok v →
      joint.result =
        (if q.statements.isEmpty then .ok v
        else second.result.mapError (.mapRuntime (·.mapLine (· + (a.toList.count '\n' + 1))))) ∧
      joint.world.context = second.world.context ∧
      joint.world.output = first.world.output ++ second.world.output) := by
  have hlines : s.context.IgnoresLines := by
    intro name f hf
    rw [hfunctions] at hf
    exact Context.ignoresLines_withBuiltins name f hf
  obtain ⟨w, w', hw, hfirst, hjoint⟩ := Session.exists_run_append hlines hts hp hus hq hseam
  have hagree := Statement.simulates_self "" none p.statements hw
  intro first second joint
  simp only [first, second, joint, hfirst, hjoint, Eval.bind_apply]
  generalize Statement.evalFrom none p.statements w = result at hagree ⊢
  generalize Statement.evalFrom none p.statements w' = result' at hagree ⊢
  cases hagree with
  | error hu =>
      constructor
      · rintro e ⟨⟩
        exact ⟨rfl, hu.context_eq, by simpa [Run.ofResult] using hu.output_eq⟩
      · intro v hv
        cases hv
  | ok hu =>
      constructor
      · intro e he
        cases he
      · rintro v ⟨⟩
        exact Session.run_continues hu hus hq

end Seam

/-- A minus sign behind a block starts a statement of its own. -/
theorem Session.run_append_negated :
    let a := "var x = 1\n\x7b x = x \x7d"
    let b := "-x\ny"
    let one := (Decimal.ofDigits ['1'] []).toFloat
    let ts : List Token := [⟨.keyword .var, 1⟩, ⟨.identifier "x", 1⟩, ⟨.assign, 1⟩,
      ⟨.integer one, 1⟩, ⟨.leftBrace, 2⟩, ⟨.identifier "x", 2⟩, ⟨.assign, 2⟩, ⟨.identifier "x", 2⟩,
      ⟨.rightBrace, 2⟩, ⟨.eof, 2⟩]
    let us : List Token := [⟨.minus, 1⟩, ⟨.identifier "x", 1⟩, ⟨.identifier "y", 2⟩, ⟨.eof, 2⟩]
    Token.tokenize a = .ok ts ∧ Token.tokenize b = .ok us ∧
      (Session.new.run a).result = .ok (some (.number one)) ∧
      (Session.new.run (a ++ "\n" ++ b)).result = .error (.runtime (.unknownVariable "y" 4)) := by
  intro a b one ts us
  have hts : Token.tokenize a = .ok ts := by
    simp [a, ts, one, Token.tokenize, Token.lex, Token.isBlank, Token.lexemeTail, Token.ofLexeme,
      Token.ofNumber, Token.ofName, Token.ofSymbol, Token.isNameStart, Token.isNamePart]
  have hus : Token.tokenize b = .ok us := by
    simp [b, us, Token.tokenize, Token.lex, Token.isBlank, Token.lexemeTail, Token.ofLexeme,
      Token.ofName, Token.ofSymbol, Token.isNameStart, Token.isNamePart]
  clear_value one
  have hp : parse ts = .ok ⟨1, [.declare 1 "x" (.number 1 one),
      .block 2 [.expression (.assign 2 "x" (.name 2 "x"))]]⟩ := by with_unfolding_all rfl
  have hq : parse us = .ok ⟨1, [.expression (.negate 1 (.name 1 "x")),
      .expression (.name 2 "y")]⟩ := by with_unfolding_all rfl
  have hfirst : (Session.new.run a).result = .ok (some (.number one)) := by
    simp only [Session.run, Block.reading, hts, hp]
    with_unfolding_all rfl
  have hsecond : ((Session.after (Session.new.run a)).run b).result =
      .error (.runtime (.unknownVariable "y" 2)) := by
    simp only [Session.run, Block.reading, hts, hp, hus, hq]
    with_unfolding_all rfl
  have hseam : ∀ t ∈ (Token.significant ts).getLast?, ∀ u ∈ (Token.significant us).head?,
      ¬ t.CarriesOn u := by
    simp [ts, us, Token.significant, Token.CarriesOn]
  have hfunctions : ∀ name,
      Session.new.context.function? name = Context.withBuiltins.function? name := fun _ => rfl
  obtain ⟨hjoint, _⟩ := (Session.run_append hfunctions hts hp hus hq hseam).2 _ hfirst
  have hlines : a.toList.count '\n' + 1 = 2 := by simp [a]
  rw [hsecond, hlines] at hjoint
  exact ⟨hts, hus, hfirst, hjoint⟩

end Abacus
