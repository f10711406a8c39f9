import Abacus.Proofs.Session.Joining
import Abacus.Proofs.Syntax.Renumbering
import Abacus.Proofs.Token.Faults

/-!
The lines of a run. Line numbers go from tokens to trees and from trees to errors and are never looked
at on the way, so renumbering the tokens renumbers all that comes of them, and a text further down does
the same further down. It also follows that no line comes from anywhere else: a renumbering that changes
no line of the tokens changes no error, and so the line of the error is one of theirs.
-/
namespace Abacus

/-- The same error in a text that starts some line feeds later. -/
def Error.shift (lines : Nat) : Error → Error
  | lex cause => lex (cause.shift lines lines)
  | parse cause => parse (cause.mapLine (· + lines))
  | runtime cause => runtime (cause.mapLine (· + lines))

@[simp] theorem ParseError.line_mapLine (r : Nat → Nat) (e : ParseError) :
    (e.mapLine r).line = r e.line := by
  cases e <;> rfl

@[simp] theorem RuntimeError.line_mapLine (r : Nat → Nat) (e : RuntimeError) :
    (e.mapLine r).line = r e.line := by
  cases e <;> rfl

theorem Context.ignoresLines_of_function?_eq {c : Context}
    (h : ∀ name, c.function? name = withBuiltins.function? name) : c.IgnoresLines := by
  intro name f hf
  rw [h] at hf
  exact ignoresLines_withBuiltins name f hf

theorem World.Continues.refl {w : World} (h : w.context.IgnoresLines) : World.Continues "" w w :=
  ⟨rfl, String.empty_append.symm, h⟩

theorem Token.ne_nil_of_tokenize {source : String} {ts : List Token} (h : tokenize source = .ok ts) :
    ts ≠ [] := by
  obtain ⟨body, rfl, _⟩ := exists_of_lex h
  simp

section Renumbering

variable {r : Nat → Nat}

theorem Eval.Agree.run_eq {α : Type} {f : RuntimeError → RuntimeError}
    {result result' : EStateM.Result RuntimeError World α}
    (h : Agree (World.Continues "") f result result') :
    let run := Run.ofResult result
    let run' := Run.ofResult result'
    run'.result = run.result.mapError (.mapRuntime f) ∧
      run'.world.context = run.world.context ∧ run'.world.output = run.world.output := by
  cases h with
  | ok hu => exact ⟨rfl, hu.context_eq, hu.output_eq.trans String.empty_append⟩
  | error hu => exact ⟨rfl, hu.context_eq, hu.output_eq.trans String.empty_append⟩

theorem Token.tokenize_lineFeeds (lines : Nat) (source : String) :
    tokenize (String.ofList (List.replicate lines '\n') ++ source) =
      ((tokenize source).mapError (·.shift lines lines)).map (List.map (mapLine (· + lines))) := by
  have hgap : IsGap (List.replicate lines '\n') := by
    intro c hc
    obtain rfl := List.eq_of_mem_replicate hc
    simp
  rw [tokenize, tokenize, String.toList_append, String.toList_ofList, lex_gap hgap,
    List.length_replicate, List.count_replicate_self, lex_shift]

/-- A text behind some line feeds spells the same program that many lines further down. -/
theorem Block.ofSource_lineFeeds (lines : Nat) (source : String) :
    ofSource (String.ofList (List.replicate lines '\n') ++ source) =
      ((ofSource source).mapError (·.shift lines)).map (·.mapLines (· + lines)) := by
  have htokens := Token.tokenize_lineFeeds lines source
  cases hts : Token.tokenize source with
  | error e =>
      rw [hts] at htokens
      simp only [ofSource, reading, hts, htokens]
      rfl
  | ok ts =>
      rw [hts] at htokens
      have hparse := parse_map (· + lines) (Token.ne_nil_of_tokenize hts)
      replace htokens : Token.tokenize _ = .ok (ts.map (·.mapLine (· + lines))) := htokens
      simp only [ofSource, reading, hts, htokens, hparse]
      cases parse ts <;> rfl

/-- A text behind some line feeds does the same, and its errors are that many lines further down. -/
theorem Session.run_lineFeeds {s : Session} (hlines : s.context.IgnoresLines) (lines : Nat)
    (source : String) :
    let here := s.run source
    let below := s.run (String.ofList (List.replicate lines '\n') ++ source)
    below.result = here.result.mapError (·.shift lines) ∧
      below.world.context = here.world.context ∧ below.world.output = here.world.output := by
  have hbelow := Block.ofSource_lineFeeds lines source
  intro here below
  cases hsource : Block.ofSource source with
  | error e =>
      rw [hsource] at hbelow
      have hhere : here = _ := s.run_eq source
      have hbelow' : below = _ := s.run_eq _
      rw [hhere, hbelow', hsource, hbelow]
      exact ⟨rfl, rfl, rfl⟩
  | ok p =>
      -- The two evaluations start in worlds that differ in their events only.
      rw [hsource] at hbelow
      obtain ⟨w, hcontext, houtput, hhere⟩ := s.exists_run_eq hsource
      obtain ⟨w', hcontext', houtput', hbelow⟩ := s.exists_run_eq hbelow
      have hw : World.Continues "" w w' :=
        ⟨hcontext'.trans hcontext.symm, by rw [houtput, houtput']; rfl, hcontext ▸ hlines⟩
      have hagree := (Statement.simulates_mapLinesAll (· + lines) "" none p.statements hw).run_eq
      rw [show here = _ from hhere, show below = _ from hbelow]
      refine ⟨hagree.1.trans ?_, hagree.2⟩
      generalize Statement.evalFrom none p.statements w = result
      cases result <;> rfl

/-- Reading and evaluation carry lines and do not consult them. Renumbered tokens spell the renumbered
program or are refused on the renumbered line; a renumbered program does the same, except that its
error has the renumbered line; and so a text does the same behind any number of line feeds. -/
theorem lines_carried :
    (∀ (r : Nat → Nat) (ts : List Token), ts ≠ [] →
      parse (ts.map (·.mapLine r)) = ((parse ts).map (·.mapLines r)).mapError (·.mapLine r)) ∧
    (∀ (r : Nat → Nat) (b : Block) (c : Context),
      (∀ name, c.function? name = Context.withBuiltins.function? name) →
      let run := Run.ofEval c b.evalProgram
      let run' := Run.ofEval c (b.mapLines r).evalProgram
      run'.result = run.result.mapError (.mapRuntime (·.mapLine r)) ∧
        run'.world.context = run.world.context ∧ run'.world.output = run.world.output) ∧
    (∀ (lines : Nat) (source : String),
      let here := runSource source
      let below := runSource (String.ofList (List.replicate lines '\n') ++ source)
      below.result = here.result.mapError (·.shift lines) ∧
        below.world.output = here.world.output) := by
  refine ⟨fun r ts h => parse_map r h, fun r b c hfunctions => ?_, fun lines source => ?_⟩
  · have hlines : (World.start c).context.IgnoresLines :=
      Context.ignoresLines_of_function?_eq hfunctions
    exact (Statement.simulates_mapLinesAll r "" none b.statements (.refl hlines)).run_eq
  · have hlines : Session.new.context.IgnoresLines := Context.ignoresLines_withBuiltins
    obtain ⟨hresult, _, houtput⟩ := Session.run_lineFeeds hlines lines source
    exact ⟨hresult, houtput⟩

/-- The end of a list that runs out, a call that fails, and a text that is no program. -/
theorem lines_carried_doubled :
    let r : Nat → Nat := (2 * ·)
    let ts : List Token := [⟨.leftParen, 3⟩, ⟨.identifier "x", 5⟩]
    let b : Block := ⟨1, [.expression (.call 7 "abs" [])]⟩
    parse (ts.map (·.mapLine r)) = .error (.unclosedParen .eof 10) ∧
      (Run.ofEval .withBuiltins (b.mapLines r).evalProgram).result =
        .error (.runtime (.argumentCount "abs" (.exactly 1) 0 14)) ∧
      (runSource (String.ofList (List.replicate 4 '\n') ++ "&")).result =
        .error (.lex (.loneOperator '&' 4 5)) := by
  intro r ts b
  obtain ⟨hparse, hrun, hbelow⟩ := lines_carried
  have hts : parse ts = .error (.unclosedParen .eof 5) := by with_unfolding_all rfl
  have hb : (Run.ofEval .withBuiltins b.evalProgram).result =
      .error (.runtime (.argumentCount "abs" (.exactly 1) 0 7)) := by with_unfolding_all rfl
  have hlex : Token.tokenize "&" = .error (.loneOperator '&' 0 1) := by with_unfolding_all rfl
  have hsource : (runSource "&").result = .error (.lex (.loneOperator '&' 0 1)) := by
    simp only [runSource, Session.run, Block.reading, hlex]
  refine ⟨?_, ?_, ?_⟩
  · rw [hparse r ts (by decide), hts]
    rfl
  · rw [(hrun r b .withBuiltins fun _ => rfl).1, hb]
    rfl
  · rw [(hbelow 4 "&").1, hsource]
    rfl

end Renumbering

section Origin

variable {ts : List Token}

/-- Changes every line that no token is on. -/
def Token.moveOthers (ts : List Token) (line : Nat) : Nat :=
  if line ∈ ts.map Token.line then line else line + 1

theorem Token.exists_of_moveOthers_eq {line : Nat} (h : moveOthers ts line = line) :
    ∃ t ∈ ts, t.line = line := by
  unfold moveOthers at h
  split at h
  · exact List.mem_map.1 ‹_›
  · omega

theorem Token.map_moveOthers (ts : List Token) : ts.map (·.mapLine (moveOthers ts)) = ts := by
  refine (List.map_congr_left fun t ht => ?_).trans (List.map_id ts)
  have hline : moveOthers ts t.line = t.line := if_pos (List.mem_map_of_mem ht)
  rw [mapLine, hline]
  rfl

/-- An error of reading is on the line of a token, and so is all that is read. -/
theorem parse_moveOthers (h : ts ≠ []) :
    ((parse ts).map (·.mapLines (Token.moveOthers ts))).mapError (·.mapLine (Token.moveOthers ts)) =
      parse ts := by
  rw [← parse_map _ h, Token.map_moveOthers]

theorem exists_line_of_parse_eq_error {e : ParseError} (hts : ts ≠ []) (h : parse ts = .error e) :
    ∃ t ∈ ts, t.line = e.line := by
  have hmove := parse_moveOthers hts
  rw [h] at hmove
  have hline := congrArg ParseError.line (Except.error.inj hmove)
  rw [ParseError.line_mapLine] at hline
  exact Token.exists_of_moveOthers_eq hline

theorem Statement.mapLine_eq_of_evalFrom_eq_error {r : Nat → Nat} {body : List Statement}
    {last : Option Value} {e : RuntimeError} {w u : World} (hbody : mapLinesAll r body = body)
    (hw : w.context.IgnoresLines) (h : evalFrom last body w = .error e u) : e.mapLine r = e := by
  have hresult := (simulates_mapLinesAll r "" last body (.refl hw)).run_eq.1
  rw [hbody, h] at hresult
  exact (Error.runtime.inj (Except.error.inj hresult)).symm

theorem exists_line_of_evalFrom_eq_error {p : Block} {last : Option Value} {e : RuntimeError}
    {w u : World} (hts : ts ≠ []) (hp : parse ts = .ok p) (hw : w.context.IgnoresLines)
    (h : Statement.evalFrom last p.statements w = .error e u) : ∃ t ∈ ts, t.line = e.line := by
  have hmove := parse_moveOthers hts
  rw [hp] at hmove
  have hbody : Statement.mapLinesAll (Token.moveOthers ts) p.statements = p.statements :=
    congrArg Block.statements (Except.ok.inj hmove)
  have hline := congrArg RuntimeError.line
    (Statement.mapLine_eq_of_evalFrom_eq_error hbody hw h)
  rw [RuntimeError.line_mapLine] at hline
  exact Token.exists_of_moveOthers_eq hline

end Origin

/-- The stage that a run fails in. -/
theorem Session.stage_of_run_eq_error {s : Session} {source : String} {e : Error}
    (h : (s.run source).result = .error e) :
    match e with
    | .lex cause => Token.tokenize source = .error cause
    | .parse cause => ∃ ts, Token.tokenize source = .ok ts ∧ parse ts = .error cause
    | .runtime cause => ∃ ts p w u, Token.tokenize source = .ok ts ∧ parse ts = .ok p ∧
        w.context = s.context ∧ Statement.evalFrom none p.statements w = .error cause u := by
  cases hts : Token.tokenize source with
  | error cause =>
      simp only [run, Block.reading, hts] at h
      cases h
      rfl
  | ok ts =>
      cases hp : parse ts with
      | error cause =>
          simp only [run, Block.reading, hts, hp] at h
          cases h
          exact ⟨ts, rfl, hp⟩
      | ok p =>
          obtain ⟨w, hw, _, hrun⟩ := s.exists_run_eq (Block.ofSource_eq_ok hts hp)
          rw [hrun] at h
          cases heval : Statement.evalFrom none p.statements w with
          | ok v u =>
              rw [heval] at h
              cases h
          | error cause u =>
              rw [heval] at h
              cases h
              exact ⟨ts, p, w, u, rfl, hp, hw, heval⟩

/-- Every error that a run reports is on a line of its own text: an error of the lexer on the line
where the text that it is about starts, which stands behind what is cut into tokens, and any other error
on the line of some token. -/
theorem Session.line_of_run_eq_error {s : Session} {source : String} {e : Error}
    (hfunctions : ∀ name, s.context.function? name = Context.withBuiltins.function? name)
    (h : (s.run source).result = .error e) :
    (∀ cause, e = .lex cause → ∃ before rest : String, source = before ++ rest ∧
      (∃ ts, Token.tokenize before = .ok ts) ∧ Token.CutBefore rest.toList before.toList ∧
        cause.Blames rest.toList ∧ cause.blamed <+: rest.toList ∧
        e.line = 1 + before.toList.count '\n' ∧
        ∀ p ∈ cause.position?, p = before.utf8ByteSize ∧ p = before.length) ∧
    ((∀ cause, e ≠ .lex cause) →
      ∃ ts, Token.tokenize source = .ok ts ∧ ∃ t ∈ ts, t.line = e.line) ∧
    1 ≤ e.line ∧ e.line ≤ 1 + source.toList.count '\n' := by
  have hlines := Context.ignoresLines_of_function?_eq hfunctions
  have hrange : ∀ {ts}, Token.tokenize source = .ok ts → (∃ t ∈ ts, t.line = e.line) →
      1 ≤ e.line ∧ e.line ≤ 1 + source.toList.count '\n' := by
    rintro ts hts ⟨t, ht, hline⟩
    rw [← hline]
    exact Token.line_mem_of_lex hts t ht
  cases e with
  | lex cause =>
      obtain ⟨before, rest, hsource, hbefore, hcut, hblames, hline, hposition⟩ :=
        Token.place_of_tokenize_eq_error (stage_of_run_eq_error h)
      refine ⟨?_, fun hne => absurd rfl (hne cause), ?_⟩
      · rintro _ ⟨⟩
        exact ⟨before, rest, hsource, hbefore, hcut, hblames, hblames.blamed_isPrefix, hline,
          hposition⟩
      · change 1 ≤ cause.line ∧ cause.line ≤ 1 + source.toList.count '\n'
        rw [hsource, String.toList_append, List.count_append, hline]
        omega
  | parse cause =>
      obtain ⟨ts, hts, hp⟩ := stage_of_run_eq_error h
      have htoken := exists_line_of_parse_eq_error (Token.ne_nil_of_tokenize hts) hp
      exact ⟨by simp, fun _ => ⟨ts, hts, htoken⟩, hrange hts htoken⟩
  | runtime cause =>
      obtain ⟨ts, p, w, u, hts, hp, hw, heval⟩ := stage_of_run_eq_error h
      have htoken := exists_line_of_evalFrom_eq_error (Token.ne_nil_of_tokenize hts) hp (hw ▸ hlines)
        heval
      exact ⟨by simp, fun _ => ⟨ts, hts, htoken⟩, hrange hts htoken⟩

/-- The unknown variable is on the second of three lines. In the other text the operator that is not
doubled is on the second line, and not on the first, where the same character is. -/
theorem Session.line_of_run_eq_error_second :
    let source := "\n!y\n"
    let e : Error := .runtime (.unknownVariable "y" 2)
    let doubled := "&&\n&"
    let cause : LexError := .loneOperator '&' 3 2
    ((Session.new.run source).result = .error e ∧
      (∃ ts, Token.tokenize source = .ok ts ∧ ∃ t ∈ ts, t.line = e.line) ∧
      1 ≤ e.line ∧ e.line ≤ 1 + source.toList.count '\n') ∧
    (Session.new.run doubled).result = .error (.lex cause) ∧
      ∃ before rest : String, doubled = before ++ rest ∧
        Token.CutBefore rest.toList before.toList ∧ cause.Blames rest.toList ∧
        cause.line = 1 + before.toList.count '\n' ∧ before.length = 3 := by
  intro source e doubled cause
  have hts : Token.tokenize source = .ok [⟨.bang, 2⟩, ⟨.identifier "y", 2⟩, ⟨.eof, 3⟩] := by
    simp only [source]
    cbv
  have hp : parse [⟨.bang, 2⟩, ⟨.identifier "y", 2⟩, ⟨.eof, 3⟩] =
      .ok ⟨2, [.expression (.not 2 (.name 2 "y"))]⟩ := by with_unfolding_all rfl
  have hrun : (Session.new.run source).result = .error e := by
    simp only [Session.run, Block.reading, hts, hp]
    with_unfolding_all rfl
  have hlex : Token.tokenize doubled = .error cause := by
    simp only [doubled, cause]
    cbv
  have hdoubled : (Session.new.run doubled).result = .error (.lex cause) := by
    simp only [Session.run, Block.reading, hlex]
  obtain ⟨_, htoken, hrange⟩ := Session.line_of_run_eq_error (fun _ => rfl) hrun
  obtain ⟨hplace, _⟩ := Session.line_of_run_eq_error (fun _ => rfl) hdoubled
  obtain ⟨before, rest, hsource, _, hcut, hblames, _, hline, hposition⟩ := hplace cause rfl
  exact ⟨⟨hrun, htoken (by simp [e]), hrange⟩, hdoubled, before, rest, hsource, hcut, hblames, hline,
    (hposition 3 rfl).2.symm⟩

end Abacus
