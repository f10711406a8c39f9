import Abacus.Proofs.Syntax.Lines
import Abacus.Token.Lexer

/-!
Where the tokens of a text can be taken apart. No lexeme goes on behind a blank or a line feed, so a
line feed between two texts cuts their tokens as well: those of the second come behind those of the
first, on later lines.
-/
namespace Abacus

/-- The characters that no lexeme contains. -/
def Token.isSeparator (c : Char) : Bool :=
  c == '\n' || isBlank c

/-- The same error in a text that starts further on. -/
def LexError.shift (positions lines : Nat) : LexError → LexError
  | invalidCharacter c position line => invalidCharacter c (position + positions) (line + lines)
  | loneOperator c position line => loneOperator c (position + positions) (line + lines)
  | malformedNumber literal line => malformedNumber literal (line + lines)

namespace Token

section Separators

variable {sep : Char}

theorem isSeparator_iff :
    isSeparator sep ↔ sep = '\n' ∨ sep = ' ' ∨ sep = '\t' ∨ sep = '\x0c' ∨ sep = '\r' := by
  simp [isSeparator, isBlank, or_assoc]

theorem ne_newline_of_not_isSeparator (h : ¬ isSeparator sep) : sep ≠ '\n' := by
  rintro rfl
  exact h rfl

theorem isDigit_of_isSeparator (h : isSeparator sep) : sep.isDigit = false := by
  obtain rfl | rfl | rfl | rfl | rfl := isSeparator_iff.1 h <;> rfl

theorem isFractionPart_of_isSeparator (h : isSeparator sep) : isFractionPart sep = false := by
  obtain rfl | rfl | rfl | rfl | rfl := isSeparator_iff.1 h <;> rfl

theorem isNamePart_of_isSeparator (h : isSeparator sep) : isNamePart sep = false := by
  obtain rfl | rfl | rfl | rfl | rfl := isSeparator_iff.1 h <;> rfl

theorem takeWhile_append_cons {p : Char → Bool} (h : p sep = false) (cs rest : List Char) :
    (cs ++ sep :: rest).takeWhile p = cs.takeWhile p := by
  induction cs with
  | nil => simp [h]
  | cons c cs ih => cases hc : p c <;> simp [hc, ih]

theorem dropWhile_append_cons {p : Char → Bool} (h : p sep = false) (cs rest : List Char) :
    (cs ++ sep :: rest).dropWhile p = cs.dropWhile p ++ sep :: rest := by
  induction cs with
  | nil => simp [h]
  | cons c cs ih => cases hc : p c <;> simp [hc, ih]

/-- A lexeme does not depend on what comes behind the next separator. -/
theorem lexemeTail_append (h : isSeparator sep) (first : Char) (cs rest : List Char) :
    lexemeTail first (cs ++ sep :: rest) = lexemeTail first cs := by
  unfold lexemeTail
  simp only [takeWhile_append_cons (isDigit_of_isSeparator h),
    takeWhile_append_cons (isNamePart_of_isSeparator h),
    dropWhile_append_cons (isDigit_of_isSeparator h)]
  split
  · cases cs.dropWhile Char.isDigit with
    | nil =>
        obtain rfl | rfl | rfl | rfl | rfl := isSeparator_iff.1 h <;> rfl
    | cons c after =>
        by_cases hc : c = '.'
        · subst hc
          simp [takeWhile_append_cons (isFractionPart_of_isSeparator h)]
        · simp [hc]
  · split
    · rfl
    · cases cs with
      | nil =>
          obtain rfl | rfl | rfl | rfl | rfl := isSeparator_iff.1 h <;> simp
      | cons c cs =>
          simp only [List.cons_append]
          split <;> simp_all

theorem lexemeTail_isPrefix (first : Char) (cs : List Char) : lexemeTail first cs <+: cs := by
  unfold lexemeTail
  split
  · have hsplit : cs.takeWhile Char.isDigit ++ cs.dropWhile Char.isDigit = cs :=
      List.takeWhile_append_dropWhile
    split
    · next after hdrop =>
      rw [hdrop] at hsplit
      refine ⟨after.dropWhile isFractionPart, ?_⟩
      rw [List.append_assoc, List.cons_append, List.takeWhile_append_dropWhile]
      exact hsplit
    · exact List.takeWhile_prefix _
  · split
    · exact List.takeWhile_prefix _
    · split <;> simp

theorem not_isSeparator_of_mem_lexemeTail {first c : Char} {cs : List Char}
    (h : c ∈ lexemeTail first cs) : ¬ isSeparator c := by
  intro hc
  obtain ⟨before, after, hsplit⟩ := List.append_of_mem h
  obtain ⟨rest, hrest⟩ := lexemeTail_isPrefix first cs
  have htail : lexemeTail first cs = lexemeTail first before := by
    rw [← hrest, hsplit, List.append_assoc, List.cons_append, lexemeTail_append hc]
  have hlength := (lexemeTail_isPrefix first before).length_le
  rw [← htail, hsplit, List.length_append, List.length_cons] at hlength
  omega

end Separators

section Cut

variable (first : Char) (cs : List Char)

theorem lexemeTail_append_drop : lexemeTail first cs ++ cs.drop (lexemeTail first cs).length = cs :=
  List.prefix_iff_eq_append.1 (lexemeTail_isPrefix first cs)

theorem length_lexemeTail_le : (lexemeTail first cs).length ≤ cs.length :=
  (lexemeTail_isPrefix first cs).length_le

theorem count_newline_lexemeTail : (lexemeTail first cs).count '\n' = 0 := by
  apply List.count_eq_zero_of_not_mem
  intro h
  exact not_isSeparator_of_mem_lexemeTail h rfl

theorem count_newline_drop_lexemeTail :
    (cs.drop (lexemeTail first cs).length).count '\n' = cs.count '\n' := by
  have hsplit := congrArg (List.count '\n') (lexemeTail_append_drop first cs)
  rw [List.count_append, count_newline_lexemeTail, Nat.zero_add] at hsplit
  exact hsplit

end Cut

/-- A text is empty, or starts with a separator, or with a lexeme. -/
theorem cut_induction {motive : List Char → Prop} (nil : motive [])
    (separator : ∀ c cs, isSeparator c → motive cs → motive (c :: cs))
    (lexeme : ∀ c cs, ¬ isSeparator c → motive (cs.drop (lexemeTail c cs).length) →
      motive (c :: cs))
    (cs : List Char) : motive cs := by
  match cs with
  | [] => exact nil
  | c :: cs =>
      by_cases hc : isSeparator c
      · exact separator c cs hc (cut_induction nil separator lexeme cs)
      · exact lexeme c cs hc (cut_induction nil separator lexeme _)
termination_by cs.length
decreasing_by all_goals simp only [List.length_cons, List.length_drop]; omega

section Lex

variable (position line : Nat)

theorem lex_nil : lex position line [] = .ok [⟨.eof, line⟩] := by
  rw [lex]

theorem lex_separator {c : Char} (hc : isSeparator c) (cs : List Char) :
    lex position line (c :: cs) = lex (position + 1) (line + [c].count '\n') cs := by
  rw [lex]
  by_cases hn : c = '\n'
  · subst hn
    rfl
  · have hb : isBlank c := by simpa [isSeparator, hn] using hc
    rw [if_neg hn, if_pos hb, List.count_cons_of_ne hn]
    rfl

theorem lex_lexeme {c : Char} (hc : ¬ isSeparator c) (cs : List Char) :
    lex position line (c :: cs) =
      match ofLexeme c (lexemeTail c cs) with
      | .error fault => .error (fault.toError c (lexemeTail c cs) position line)
      | .ok kind => (lex (position + (lexemeTail c cs).length + 1) line
          (cs.drop (lexemeTail c cs).length)).map (⟨kind, line⟩ :: ·) := by
  simp only [isSeparator, Bool.or_eq_true, beq_iff_eq, not_or] at hc
  rw [lex, if_neg hc.1, if_neg hc.2]
  dsimp only
  cases ofLexeme c (lexemeTail c cs) with
  | error fault => rfl
  | ok kind =>
      cases lex (position + (lexemeTail c cs).length + 1) line
        (cs.drop (lexemeTail c cs).length) <;> rfl

/-- What a text that starts with a lexeme is cut into: the token of the lexeme and those of the
rest. -/
theorem lex_lexeme_eq_ok {position line : Nat} {c : Char} (hc : ¬ isSeparator c) {cs : List Char}
    {ts : List Token} (h : lex position line (c :: cs) = .ok ts) :
    ∃ kind tokens, ofLexeme c (lexemeTail c cs) = .ok kind ∧
      lex (position + (lexemeTail c cs).length + 1) line
        (cs.drop (lexemeTail c cs).length) = .ok tokens ∧
      ts = ⟨kind, line⟩ :: tokens := by
  rw [lex_lexeme _ _ hc] at h
  cases hkind : ofLexeme c (lexemeTail c cs) with
  | error fault =>
      rw [hkind] at h
      cases h
  | ok kind =>
      rw [hkind] at h
      cases hrest : lex (position + (lexemeTail c cs).length + 1) line
          (cs.drop (lexemeTail c cs).length) with
      | error e =>
          rw [hrest] at h
          cases h
      | ok tokens =>
          rw [hrest] at h
          cases h
          exact ⟨kind, tokens, rfl, rfl, rfl⟩

end Lex

theorem ofLexeme_ne_eof {first : Char} {tail : List Char} {kind : Kind}
    (h : ofLexeme first tail = .ok kind) : kind ≠ .eof := by
  rintro rfl
  unfold ofLexeme at h
  split at h
  · unfold ofNumber at h
    split at h
    · cases h
    · split at h <;> cases h
  · split at h
    · have hname := Except.ok.inj h
      unfold ofName at hname
      split at hname
      · cases hname
      · split at hname <;> cases hname
    · unfold ofSymbol at h
      split at h <;> cases h

/-- The tokens of a text end with an `eof` on its last line and hold no other. -/
theorem exists_of_lex {position line : Nat} {cs : List Char} {ts : List Token}
    (h : lex position line cs = .ok ts) :
    ∃ body, ts = body ++ [⟨.eof, line + cs.count '\n'⟩] ∧ ∀ t ∈ body, t.kind ≠ .eof := by
  induction cs using cut_induction generalizing position line ts with
  | nil =>
      rw [lex_nil] at h
      cases h
      exact ⟨[], rfl, nofun⟩
  | separator c cs hc ih =>
      rw [lex_separator _ _ hc] at h
      obtain ⟨body, rfl, hbody⟩ := ih h
      refine ⟨body, ?_, hbody⟩
      rw [Nat.add_assoc, ← List.count_append, List.singleton_append]
  | lexeme c cs hc ih =>
      obtain ⟨kind, tokens, hkind, hrest, rfl⟩ := lex_lexeme_eq_ok hc h
      obtain ⟨body, rfl, hbody⟩ := ih hrest
      refine ⟨⟨kind, line⟩ :: body, ?_, List.forall_mem_cons.2 ⟨ofLexeme_ne_eof hkind, hbody⟩⟩
      rw [List.count_cons_of_ne (ne_newline_of_not_isSeparator hc), count_newline_drop_lexemeTail]
      rfl

/-- A separator behind a text leaves its tokens as they are. -/
theorem lex_append_cons {sep : Char} (hsep : isSeparator sep) (position line : Nat)
    (a b : List Char) :
    lex position line (a ++ sep :: b) =
      match lex position line a with
      | .error e => .error e
      | .ok ts => (lex (position + a.length + 1) (line + (a ++ [sep]).count '\n') b).map
          (ts.dropLast ++ ·) := by
  induction a using cut_induction generalizing position line with
  | nil =>
      rw [List.nil_append, lex_separator _ _ hsep, lex_nil]
      cases h : lex (position + 1) (line + [sep].count '\n') b <;> simp [h, Except.map]
  | separator c a hc ih =>
      have hcount : line + [c].count '\n' + (a ++ [sep]).count '\n' =
          line + (c :: a ++ [sep]).count '\n' := by
        rw [Nat.add_assoc, ← List.count_append, List.singleton_append, List.cons_append]
      have hlength : position + 1 + a.length = position + (c :: a).length := by
        rw [List.length_cons, Nat.add_assoc, Nat.add_comm 1]
      rw [List.cons_append, lex_separator _ _ hc, lex_separator _ _ hc, ih, hcount, hlength]
  | lexeme c a hc ih =>
      have hle := length_lexemeTail_le c a
      have hn := ne_newline_of_not_isSeparator hc
      have hcount : (a.drop (lexemeTail c a).length ++ [sep]).count '\n' =
          (c :: a ++ [sep]).count '\n' := by
        rw [List.cons_append, List.count_cons_of_ne hn, List.count_append, List.count_append,
          count_newline_drop_lexemeTail]
      have hlength : position + (lexemeTail c a).length + 1 +
          (a.drop (lexemeTail c a).length).length = position + (c :: a).length := by
        rw [List.length_drop, List.length_cons]
        omega
      rw [List.cons_append, lex_lexeme _ _ hc, lex_lexeme _ _ hc, lexemeTail_append hsep,
        List.drop_append_of_le_length hle, ih, hcount, hlength]
      cases ofLexeme c (lexemeTail c a) with
      | error fault => rfl
      | ok kind =>
          cases hrest : lex (position + (lexemeTail c a).length + 1) line
              (a.drop (lexemeTail c a).length) with
          | error e => rfl
          | ok tokens =>
              obtain ⟨body, rfl, _⟩ := exists_of_lex hrest
              cases lex (position + (c :: a).length + 1) (line + (c :: a ++ [sep]).count '\n') b <;>
                simp [Except.map, List.dropLast_cons_of_ne_nil]

theorem lex_shift (positions lines position line : Nat) (cs : List Char) :
    lex (position + positions) (line + lines) cs =
      ((lex position line cs).mapError (·.shift positions lines)).map
        (List.map (mapLine (· + lines))) := by
  induction cs using cut_induction generalizing position line with
  | nil =>
      rw [lex_nil, lex_nil]
      rfl
  | separator c cs hc ih =>
      rw [lex_separator _ _ hc, lex_separator _ _ hc, ← ih, Nat.add_right_comm,
        Nat.add_right_comm line]
  | lexeme c cs hc ih =>
      rw [lex_lexeme _ _ hc, lex_lexeme _ _ hc]
      cases ofLexeme c (lexemeTail c cs) with
      | error fault => cases fault <;> rfl
      | ok kind =>
          dsimp only
          rw [Nat.add_right_comm position, Nat.add_right_comm _ positions, ih]
          cases lex (position + (lexemeTail c cs).length + 1) line
            (cs.drop (lexemeTail c cs).length) <;> rfl

/-- A line feed between two texts. Places are given in characters. -/
theorem tokenize_newline (a b : String) :
    tokenize (a ++ "\n" ++ b) =
      match tokenize a, tokenize b with
      | .error e, _ => .error e
      | .ok _, .error e => .error (e.shift (a.toList.length + 1) (a.toList.count '\n' + 1))
      | .ok ts, .ok us =>
          .ok (ts.dropLast ++ us.map (mapLine (· + (a.toList.count '\n' + 1)))) := by
  have htext : (a ++ "\n" ++ b).toList = a.toList ++ '\n' :: b.toList := by
    simp [String.toList_append]
  have hplace : 0 + a.toList.length + 1 = 0 + (a.toList.length + 1) := Nat.add_assoc _ _ _
  have hline : 1 + (a.toList ++ ['\n']).count '\n' = 1 + (a.toList.count '\n' + 1) := by
    rw [List.count_append, List.count_singleton_self]
  rw [tokenize, tokenize, tokenize, htext, lex_append_cons rfl, hplace, hline, lex_shift]
  cases lex 0 1 a.toList with
  | error e => rfl
  | ok ts => cases lex 0 1 b.toList <;> rfl

end Token

end Abacus
