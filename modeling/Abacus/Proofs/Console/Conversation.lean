import Abacus.Console
import Abacus.Proofs.Session.History
import Mathlib.Data.List.Basic

/-!
Conversations: what the command writes when it reads a program line by line. A conversation is nothing
but the runs of its lines one after the other, and a line that asks for nothing leaves no trace in the
runs of the others.
-/
namespace Abacus

namespace Session

/-- The runs of some texts one after the other, each in the session that the one before it leaves. -/
def runs (s : Session) : List String → List (Run (Option Value))
  | [] => []
  | source :: rest => s.run source :: (after (s.run source)).runs rest

theorem after_run_of_idle {s : Session} {source : String} (h : Idle source) :
    after (s.run source) = s :=
  congrArg Session.mk (run_of_idle h).1

/-- Leaving out a text that asks for nothing leaves out its run and changes no other. -/
theorem runs_eraseIdx {sources : List String} {index : Nat} {source : String}
    (hsource : sources[index]? = some source) (hidle : Idle source) (s : Session) :
    s.runs (sources.eraseIdx index) = (s.runs sources).eraseIdx index := by
  induction sources generalizing index s with
  | nil => rfl
  | cons first rest ih =>
      cases index with
      | zero =>
          -- The session goes on as if the text had not been there.
          obtain rfl : first = source := Option.some.inj hsource
          rw [runs, after_run_of_idle hidle]
          rfl
      | succ index => exact congrArg (s.run first :: ·) (ih hsource (after (s.run first)))

end Session

namespace Console

/-- A text that can stand on a line: there is no line feed in it, and it does not end in what would be
taken for a part of the end of the line. -/
def FitsLine (l : String) : Prop :=
  '\n' ∉ l.toList ∧ l.toList.getLast? ≠ some '\r'

/-- The bytes of a text. -/
def bytes (l : String) : List UInt8 :=
  l.toList.flatMap String.utf8EncodeChar

theorem toList_loop_eq (b : ByteArray) (i : Nat) (reversed : List UInt8) :
    ByteArray.toList.loop b i reversed = reversed.reverse ++ b.data.toList.drop i := by
  fun_induction ByteArray.toList.loop b i reversed with
  | case1 i reversed hlt ih =>
      have hi : i < b.data.toList.length := by simpa using hlt
      have hget : b.get! i = b.data.toList[i] := getElem!_pos b.data i hlt
      rw [ih, hget, List.drop_eq_getElem_cons hi]
      simp
  | case2 i reversed hge =>
      have hi : b.data.toList.length ≤ i := by simpa using hge
      rw [List.drop_eq_nil_of_le hi, List.append_nil]

theorem toList_toUTF8 (l : String) : l.toUTF8.toList = bytes l := by
  rw [ByteArray.toList, toList_loop_eq, String.toUTF8_eq_toByteArray, ← String.utf8Encode_toList,
    List.utf8Encode, List.data_toByteArray]
  rfl

theorem lineText_bytes (l : String) : lineText (bytes l).reverse = some l := by
  have hbytes : (⟨(bytes l).toArray⟩ : ByteArray) = l.toByteArray := by
    rw [← String.utf8Encode_toList, List.utf8Encode]
    exact congrArg ByteArray.mk List.data_toByteArray.symm
  rw [lineText, List.reverse_reverse, hbytes, String.fromUTF8?, dif_pos l.isValidUTF8]
  rfl

/-- A byte of a character that is an ASCII code is the code of that character. -/
theorem toNat_eq_of_mem_utf8EncodeChar {b : UInt8} {c : Char} (h : b ∈ String.utf8EncodeChar c)
    (hb : b.toNat < 128) : c.toNat = b.toNat := by
  have hc : c.toNat = c.val.toNat := rfl
  simp only [String.utf8EncodeChar] at h
  split_ifs at h <;> simp only [List.mem_cons, List.not_mem_nil, or_false] at h
  · rw [h, UInt8.toNat_ofNat', hc]
    omega
  -- In a character of several bytes none is an ASCII code.
  · rcases h with rfl | rfl <;> rw [UInt8.toNat_ofNat'] at hb <;> omega
  · rcases h with rfl | rfl | rfl <;> rw [UInt8.toNat_ofNat'] at hb <;> omega
  · rcases h with rfl | rfl | rfl | rfl <;> rw [UInt8.toNat_ofNat'] at hb <;> omega

section Lines

variable {l : String}

theorem FitsLine.newline_not_mem (h : FitsLine l) : 10 ∉ bytes l := by
  intro hmem
  obtain ⟨c, hc, hbyte⟩ := List.mem_flatMap.1 hmem
  obtain rfl : c = '\n' := Char.toNat_inj.1 (toNat_eq_of_mem_utf8EncodeChar hbyte (by decide))
  exact h.1 hc

theorem FitsLine.reverse_ne (h : FitsLine l) (reversed : List UInt8) :
    (bytes l).reverse ≠ 13 :: reversed := by
  intro hbytes
  obtain hnil | ⟨cs, c, hcs⟩ := List.eq_nil_or_concat l.toList
  · simp [bytes, hnil] at hbytes
  · simp only [bytes, hcs, List.concat_eq_append, List.flatMap_append, List.flatMap_singleton,
      List.reverse_append, List.append_eq_cons_iff, List.reverse_eq_nil_iff,
      String.utf8EncodeChar_ne_nil, false_and, false_or] at hbytes
    obtain ⟨others, hlast, _⟩ := hbytes
    have hmem : 13 ∈ String.utf8EncodeChar c := List.mem_reverse.1 (hlast ▸ List.mem_cons_self)
    obtain rfl : c = '\r' := Char.toNat_inj.1 (toNat_eq_of_mem_utf8EncodeChar hmem (by decide))
    exact h.2 (by simp [hcs])

end Lines

theorem linesFrom_append {bytes : List UInt8} (h : 10 ∉ bytes) (reversed rest : List UInt8) :
    linesFrom reversed (bytes ++ rest) = linesFrom (bytes.reverse ++ reversed) rest := by
  induction bytes generalizing reversed with
  | nil => rfl
  | cons b bytes ih =>
      have hb : b ≠ 10 := fun hb => h (hb ▸ List.mem_cons_self)
      have hbytes := ih (h <| List.mem_cons_of_mem b ·) (b :: reversed)
      rw [List.cons_append, linesFrom.eq_def, List.reverse_cons, List.append_assoc]
      exact (if_neg hb).trans hbytes

/-- Texts that are written with a line feed behind each are the lines that are read. -/
theorem lines_join {ls : List String} (h : ∀ l ∈ ls, FitsLine l) :
    lines (String.join (ls.map (· ++ "\n"))).toUTF8 = ls.map some := by
  rw [lines, toList_toUTF8]
  induction ls with
  | nil => rfl
  | cons l ls ih =>
      have hl := h l List.mem_cons_self
      have hbytes : bytes (String.join ((l :: ls).map (· ++ "\n"))) =
          bytes l ++ 10 :: bytes (String.join (ls.map (· ++ "\n"))) := by
        simp [bytes, String.utf8EncodeChar]
      rw [hbytes, linesFrom_append hl.newline_not_mem, List.append_nil, linesFrom, if_pos rfl,
        lineText_bytes, ih (h · <| List.mem_cons_of_mem l ·), List.map_cons]
      -- No carriage return is taken off, since none is the last byte.
      exact hl.reverse_ne

/-- How the value of a run is written, if there is one. -/
def valueText (r : Run (Option Value)) : String :=
  match r.result with
  | .ok (some value) => value.text ++ "\n"
  | _ => ""

/-- The message of a run that fails. -/
def errorText? (r : Run (Option Value)) : Option String :=
  match r.result with
  | .error e => some e.message
  | .ok _ => none

/-- The lines that are run: those before the first one that says `exit`. -/
def heard (ls : List String) : List String :=
  ls.takeWhile (!isExit ·)

theorem heard_cons {line : String} (h : ¬isExit line) (rest : List String) :
    heard (line :: rest) = line :: heard rest := by
  simp [heard, h]

/-- No event is important enough for the log that is shown by default. -/
theorem lines_filter_default (events : List Event) : (filter none 0).lines events = [] := by
  have hshows : ∀ e : Event, (filter none 0).shows e = false := by
    intro e
    cases e <;> rfl
  simp [Log.Filter.lines, hshows]

theorem written_eq (f : Log.Filter) (r : Run (Option Value)) :
    written f r = (r.world.output ++ valueText r, f.lines r.events ++ (errorText? r).toList) := by
  unfold written valueText errorText?
  split <;> simp_all [String.append_assoc]

/-- A conversation of texts, whatever the log shows: on the one side prompts, what is printed and
values, on the other the log and messages. -/
theorem converse_map_some (f : Log.Filter) (s : Session) (ls : List String) :
    converse f s (ls.map some) =
      ⟨0,
        String.join ((s.runs (heard ls)).map fun r => prompt ++ r.world.output ++ valueText r) ++
          prompt ++ (if ls.any isExit then "" else "\n"),
        (s.runs (heard ls)).flatMap fun r => f.lines r.events ++ (errorText? r).toList⟩ := by
  induction ls generalizing s with
  | nil => rfl
  | cons line rest ih =>
      by_cases hexit : isExit line
      · simp [converse, answer, Report.behind, heard, hexit, Session.runs]
      · simp [converse, answer, Report.behind, hexit, heard_cons hexit, Session.runs, written_eq, ih,
          String.append_assoc]

/-- Leaving out a line that is run leaves it out of the lines that are run. -/
theorem heard_eraseIdx {ls : List String} {index : Nat} (h : index < (heard ls).length) :
    heard (ls.eraseIdx index) = (heard ls).eraseIdx index := by
  induction ls generalizing index with
  | nil => rfl
  | cons line rest ih =>
      by_cases hexit : isExit line
      · simp [heard, hexit] at h
      · rw [heard_cons hexit] at h ⊢
        cases index with
        | zero => rfl
        | succ index =>
            rw [List.eraseIdx_cons_succ, List.eraseIdx_cons_succ, heard_cons hexit,
              ih (Nat.succ_lt_succ_iff.1 h)]

/-- The command, reading texts line by line, runs each of them up to the first `exit` in the session
that the one before it leaves. It writes a prompt, what is printed and the value for every line, and one
more prompt in the end; it reports the messages of the lines that fail, and nothing else by default; and
it ends well. The other lines do not notice if a line that asks for nothing is left out. -/
theorem respond_lines {arguments : List String} {verbose : Nat} {stdin : ByteArray} {ls : List String}
    (hrequest : Request.ofArguments arguments = .run .lines verbose)
    (hlines : lines stdin = ls.map some) (setting : Option String)
    (files : String → Except ReadFailure ByteArray) :
    let report := respond arguments setting files stdin
    let runs := Session.new.runs (heard ls)
    report.stdout =
      String.join (runs.map fun r => prompt ++ r.world.output ++ valueText r) ++
        prompt ++ (if ls.any isExit then "" else "\n") ∧
    (filter setting verbose = filter none 0 → report.stderr = runs.filterMap errorText?) ∧
    report.status = 0 ∧
    ∀ index source, (heard ls)[index]? = some source → Session.Idle source →
      Session.new.runs (heard (ls.eraseIdx index)) = runs.eraseIdx index := by
  intro report runs
  have hreport : report = converse (filter setting verbose) .new (ls.map some) := by
    simp only [report, respond, hrequest, hlines]
  rw [hreport, converse_map_some]
  refine ⟨rfl, fun hdefault => ?_, rfl, fun index source hsource hidle => ?_⟩
  · simp only [hdefault, lines_filter_default, List.nil_append]
    exact (List.filterMap_eq_flatMap_toList errorText? runs).symm
  · obtain ⟨hlength, _⟩ := List.getElem?_eq_some_iff.1 hsource
    rw [heard_eraseIdx hlength]
    exact Session.runs_eraseIdx hsource hidle Session.new

/-- A line that is no program stands between one that declares a variable and one that prints it. -/
theorem respond_lines_lone_operator :
    let ls := ["var a = 7", "&", "print(a)", "\texit"]
    let stdin := (String.join (ls.map (· ++ "\n"))).toUTF8
    let report := respond [] none (fun _ => .error .notUtf8) stdin
    report.stdout = ">> 7\n>> >> 7\n7\n>> " ∧
      report.stderr =
        ["Error on line 1: Operator '&' is not supported, did you mean '&&'?"] ∧
      Session.new.runs (heard (ls.eraseIdx 1)) = (Session.new.runs (heard ls)).eraseIdx 1 := by
  intro ls stdin report
  have hrequest : Request.ofArguments [] = .run .lines 0 := rfl
  have hlines : lines stdin = ls.map some := lines_join (by simp [ls, FitsLine])
  have hlex : Token.tokenize "&" = .error (.loneOperator '&' 0 1) := by with_unfolding_all rfl
  let seven := (Decimal.ofDigits ['7'] []).toFloat
  have htext : Number.text seven ++ "\n" = "7\n" := by decide +kernel
  let ts : List Token := [⟨.keyword .var, 1⟩, ⟨.identifier "a", 1⟩, ⟨.assign, 1⟩,
    ⟨.integer seven, 1⟩, ⟨.eof, 1⟩]
  have hts : Token.tokenize "var a = 7" = .ok ts := by
    simp [ts, seven, Token.tokenize, Token.lex, Token.isBlank, Token.lexemeTail, Token.ofLexeme,
      Token.ofNumber, Token.ofName, Token.ofSymbol, Token.isNameStart, Token.isNamePart]
  let us : List Token := [⟨.identifier "print", 1⟩, ⟨.leftParen, 1⟩, ⟨.identifier "a", 1⟩,
    ⟨.rightParen, 1⟩, ⟨.eof, 1⟩]
  have hus : Token.tokenize "print(a)" = .ok us := by
    simp [us, Token.tokenize, Token.lex, Token.isBlank, Token.lexemeTail, Token.ofLexeme,
      Token.ofName, Token.ofSymbol, Token.isNameStart, Token.isNamePart]
  clear_value seven
  have hprinted : "" ++ (" ".intercalate [Number.text seven] ++ "\n") = "7\n" := by
    rw [String.empty_append]
    exact htext
  have hp : parse ts = .ok ⟨1, [.declare 1 "a" (.number 1 seven)]⟩ := by with_unfolding_all rfl
  have hq : parse us = .ok ⟨1, [.expression (.call 1 "print" [.name 1 "a"])]⟩ := by
    with_unfolding_all rfl
  let first := Session.new.run "var a = 7"
  let second := (Session.after first).run "&"
  let third := (Session.after first).run "print(a)"
  have hfirst : valueText first = "7\n" ∧ errorText? first = none ∧ first.world.output = "" := by
    simp only [first, Session.run, Block.reading, hts, hp]
    with_unfolding_all exact ⟨htext, rfl, rfl⟩
  have hsecond : valueText second = "" ∧ second.world.output = "" ∧ errorText? second =
      some "Error on line 1: Operator '&' is not supported, did you mean '&&'?" := by
    simp only [second, Session.run, Block.reading, hlex]
    decide
  have hthird : valueText third = "7\n" ∧ errorText? third = none ∧ third.world.output = "7\n" := by
    simp only [third, first, Session.run, Block.reading, hts, hp, hus, hq]
    with_unfolding_all exact ⟨htext, rfl, hprinted⟩
  have hheard : heard ls = ["var a = 7", "&", "print(a)"] := by decide
  have hexit : ls.any isExit := by decide
  have hruns : Session.new.runs (heard ls) = [first, second, third] := by
    simp only [hheard, Session.runs, Session.after_run_of_idle (.lex hlex), first, second, third]
  obtain ⟨hstdout, hstderr, _, hothers⟩ :=
    respond_lines hrequest hlines none fun _ => .error .notUtf8
  refine ⟨?_, ?_, hothers 1 "&" (by rw [hheard]; rfl) (.lex hlex)⟩
  · rw [hstdout, hruns]
    simp [hfirst, hsecond, hthird, hexit, prompt]
  · rw [hstderr rfl, hruns]
    simp [hfirst, hsecond, hthird]

end Console

end Abacus
