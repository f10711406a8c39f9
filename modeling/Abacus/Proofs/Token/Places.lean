import Abacus.Proofs.Token.LongestMatch

/-!
Where tokens and faults stand. Tokens are on the lines of the text that they are cut from. A text can be
cut into white space and lexemes up to its end or up to its first fault, and the lexer cuts it there,
whatever follows. What can be cut is made of characters of one byte, so that places count bytes as well
as characters. A line feed between two texts cuts them apart: the second is read as it would be alone,
from a later place.
-/
namespace Abacus

namespace Token

variable {position line : Nat} {cs : List Char}

theorem count_newline_cons (c : Char) (cs : List Char) :
    (c :: cs).count '\n' = [c].count '\n' + cs.count '\n' := by
  rw [← List.count_append, List.singleton_append]

theorem line_mem_of_lex {ts : List Token} (h : lex position line cs = .ok ts) :
    ∀ t ∈ ts, line ≤ t.line ∧ t.line ≤ line + cs.count '\n' := by
  induction cs using cut_induction generalizing position line ts with
  | nil =>
      rw [lex_nil] at h
      cases h
      simp
  | separator c cs hc ih =>
      rw [lex_separator _ _ hc] at h
      intro t ht
      obtain ⟨hle, hge⟩ := ih h t ht
      rw [count_newline_cons]
      omega
  | lexeme c cs hc ih =>
      obtain ⟨kind, tokens, _, hrest, rfl⟩ := lex_lexeme_eq_ok hc h
      have htokens := ih hrest
      rw [count_newline_drop_lexemeTail] at htokens
      rw [List.count_cons_of_ne (ne_newline_of_not_isSeparator hc)]
      exact List.forall_mem_cons.2 ⟨⟨Nat.le_refl _, Nat.le_add_right _ _⟩, htokens⟩

theorem IsLongest.of_append {lexeme rest more : List Char} (h : IsLongest lexeme (rest ++ more)) :
    IsLongest lexeme rest := by
  intro part hpart
  apply h
  rw [← List.append_assoc]
  exact hpart.trans (List.prefix_append _ _)

/-- A text is white space and lexemes, each of which is the longest also in front of `rest`. -/
inductive CutBefore (rest : List Char) : List Char → Prop where
  | nil : CutBefore rest []
  | gap {gap cs : List Char} : IsGap gap → CutBefore rest cs → CutBefore rest (gap ++ cs)
  | lexeme {lexeme cs : List Char} {kind : Kind} : Lexeme lexeme kind →
      IsLongest lexeme (cs ++ rest) → CutBefore rest cs → CutBefore rest (lexeme ++ cs)

namespace CutBefore

variable {rest before : List Char}

theorem alone (h : CutBefore rest before) : CutBefore [] before := by
  induction h with
  | nil => exact .nil
  | gap hgap _ ih => exact .gap hgap ih
  | lexeme hlexeme hlongest _ ih =>
      refine .lexeme hlexeme ?_ ih
      rw [List.append_nil]
      exact hlongest.of_append

/-- The lexer takes the text apart where it is cut and goes on with the rest. -/
theorem lex_append (h : CutBefore rest before) (position line : Nat) :
    ∃ ts, lex position line (before ++ rest) =
      (lex (position + before.length) (line + before.count '\n') rest).map (ts ++ ·) := by
  induction h generalizing position line with
  | nil =>
      refine ⟨[], ?_⟩
      cases hrest : lex position line rest <;> simp [hrest, Except.map]
  | @gap gap cs hgap _ ih =>
      obtain ⟨ts, hts⟩ := ih (position + gap.length) (line + gap.count '\n')
      refine ⟨ts, ?_⟩
      rw [List.append_assoc, lex_gap hgap, hts, List.length_append, List.count_append,
        ← Nat.add_assoc, ← Nat.add_assoc]
  | @lexeme lexeme cs kind hlexeme hlongest _ ih =>
      have hcount : line + (lexeme ++ cs).count '\n' = line + cs.count '\n' := by
        rw [List.count_append, hlexeme.lexes.count_newline, Nat.zero_add]
      cases hlexeme.lexes with
      | @intro first tail _ hfirst _ hkind =>
          have htail := lexemeTail_of_isLongest hlexeme.matched hlongest
          have hlength : position + (first :: tail ++ cs).length =
              position + tail.length + 1 + cs.length := by
            rw [List.length_append, List.length_cons]
            omega
          obtain ⟨ts, hts⟩ := ih (position + tail.length + 1) line
          refine ⟨⟨kind, line⟩ :: ts, ?_⟩
          rw [List.append_assoc, List.cons_append, lex_lexeme _ _ hfirst, htail, hkind]
          dsimp only
          rw [List.drop_left, hts, hcount, hlength]
          cases lex (position + tail.length + 1 + cs.length) (line + cs.count '\n') rest <;> rfl

theorem exists_lex_eq_ok (h : CutBefore rest before) (position line : Nat) :
    ∃ ts, lex position line before = .ok ts := by
  obtain ⟨ts, hts⟩ := h.alone.lex_append position line
  rw [List.append_nil, lex_nil] at hts
  exact ⟨_, hts⟩

end CutBefore

/-- A text can be cut up to its end, or up to a lexeme that is no token. -/
theorem exists_cutBefore (cs : List Char) :
    ∃ before rest, cs = before ++ rest ∧ CutBefore rest before ∧ (rest = [] ∨
      ∃ c tail fault, rest = c :: tail ∧ ¬ isSeparator c ∧
        ofLexeme c (lexemeTail c tail) = .error fault) := by
  induction cs using cut_induction with
  | nil => exact ⟨[], [], rfl, .nil, .inl rfl⟩
  | separator c cs hc ih =>
      obtain ⟨before, rest, rfl, hcut, hrest⟩ := ih
      have hgap : IsGap [c] := isGap_iff.2 (List.forall_mem_singleton.2 hc)
      exact ⟨c :: before, rest, rfl, .gap hgap hcut, hrest⟩
  | lexeme c cs hc ih =>
      cases hkind : ofLexeme c (lexemeTail c cs) with
      | error fault => exact ⟨[], c :: cs, rfl, .nil, .inr ⟨c, cs, fault, rfl, hc, hkind⟩⟩
      | ok kind =>
          obtain ⟨before, rest, hcs, hcut, hrest⟩ := ih
          have hlongest := isLongest_lexemeTail c cs
          rw [hcs] at hlongest
          refine ⟨c :: lexemeTail c cs ++ before, rest, ?_,
            .lexeme (lexeme_of_ofLexeme hkind) hlongest hcut, hrest⟩
          rw [List.append_assoc, ← hcs, List.cons_append, lexemeTail_append_drop]

/-- Behind what can be cut, the lexer fails at a lexeme that is no token. -/
theorem CutBefore.lex_eq_error {before rest : List Char} {c : Char} {fault : Fault}
    (h : CutBefore (c :: rest) before) (hc : ¬ isSeparator c)
    (hfault : ofLexeme c (lexemeTail c rest) = .error fault) (position line : Nat) :
    lex position line (before ++ c :: rest) =
      .error (fault.toError c (lexemeTail c rest) (position + before.length)
        (line + before.count '\n')) := by
  obtain ⟨ts, hts⟩ := h.lex_append position line
  rw [hts, lex_lexeme _ _ hc, hfault]
  rfl

theorem exists_of_lex_eq_error {e : LexError} (h : lex position line cs = .error e) :
    ∃ before c rest fault, cs = before ++ c :: rest ∧ CutBefore (c :: rest) before ∧
      ¬ isSeparator c ∧ ofLexeme c (lexemeTail c rest) = .error fault ∧
      e = fault.toError c (lexemeTail c rest) (position + before.length)
        (line + before.count '\n') := by
  obtain ⟨before, rest, rfl, hcut, rfl | ⟨c, tail, fault, rfl, hc, hfault⟩⟩ := exists_cutBefore cs
  · obtain ⟨ts, hts⟩ := hcut.exists_lex_eq_ok position line
    rw [List.append_nil, hts] at h
    cases h
  · rw [hcut.lex_eq_error hc hfault] at h
    cases h
    exact ⟨before, c, tail, fault, rfl, hcut, hc, hfault, rfl⟩

theorem cutBefore_of_lex {ts : List Token} (h : lex position line cs = .ok ts) :
    CutBefore [] cs := by
  obtain ⟨before, rest, rfl, hcut, rfl | ⟨c, tail, fault, rfl, hc, hfault⟩⟩ := exists_cutBefore cs
  · rw [List.append_nil]
    exact hcut
  · rw [hcut.lex_eq_error hc hfault] at h
    cases h

section Bytes

theorem utf8Size_of_isAlphanum {c : Char} (h : c.isAlphanum) : c.utf8Size = 1 := by
  simp only [Char.isAlphanum, Char.isAlpha, Char.isUpper, Char.isLower, Char.isDigit,
    Bool.or_eq_true, Bool.and_eq_true, decide_eq_true_eq, ge_iff_le, UInt32.le_iff_toNat_le] at h
  rw [Char.utf8Size_eq_one_iff, UInt32.le_iff_toNat_le]
  obtain (⟨_, h⟩ | ⟨_, h⟩) | ⟨_, h⟩ := h <;> exact Nat.le_trans h (by decide)

theorem Matched.utf8Size_eq_one {part : List Char} (h : Matched part) :
    ∀ c ∈ part, c.utf8Size = 1 := by
  have hletter : ∀ {c : Char}, c.isAlpha → c.utf8Size = 1 := fun h =>
    utf8Size_of_isAlphanum (by simp [Char.isAlphanum, h])
  have hdigit : ∀ {c : Char}, c.isDigit → c.utf8Size = 1 := fun h =>
    utf8Size_of_isAlphanum (by simp [Char.isAlphanum, h])
  cases h with
  | symbol kind hk =>
      cases kind with
      | float _ | integer _ | keyword _ | identifier _ | newline | blank | eof => cases hk
      | _ => simp [Kind.text, Char.utf8Size]
  | word hfirst htail =>
      refine List.forall_mem_cons.2 ⟨?_, fun c hc => ?_⟩
      · obtain h | rfl := hfirst
        · exact hletter h
        · rfl
      · obtain h | rfl := htail c hc
        · exact utf8Size_of_isAlphanum h
        · rfl
  | digits _ hdigits => exact fun c hc => hdigit (hdigits c hc)
  | number _ hdigits hrun =>
      refine List.forall_mem_append.2 ⟨fun c hc => hdigit (hdigits c hc),
        List.forall_mem_cons.2 ⟨rfl, fun c hc => ?_⟩⟩
      obtain h | rfl := hrun c hc
      · exact hdigit h
      · rfl

theorem CutBefore.utf8Size_eq_one {rest before : List Char} (h : CutBefore rest before) :
    ∀ c ∈ before, c.utf8Size = 1 := by
  induction h with
  | nil => nofun
  | gap hgap _ ih =>
      refine List.forall_mem_append.2 ⟨fun c hc => ?_, ih⟩
      obtain rfl | rfl | rfl | rfl | rfl := hgap c hc <;> rfl
  | lexeme hlexeme _ _ ih => exact List.forall_mem_append.2 ⟨hlexeme.matched.utf8Size_eq_one, ih⟩

theorem utf8ByteSize_ofList {cs : List Char} (h : ∀ c ∈ cs, c.utf8Size = 1) :
    (String.ofList cs).utf8ByteSize = cs.length := by
  induction cs with
  | nil => rfl
  | cons c cs ih =>
      obtain ⟨hc, hcs⟩ := List.forall_mem_cons.1 h
      have hsplit : String.ofList (c :: cs) = String.singleton c ++ String.ofList cs := by
        rw [String.singleton_eq_ofList, ← String.ofList_append, List.singleton_append]
      rw [hsplit, String.utf8ByteSize_append, String.utf8ByteSize_singleton, hc, ih hcs,
        List.length_cons, Nat.add_comm]

theorem CutBefore.utf8ByteSize_eq {rest : List Char} {before : String}
    (h : CutBefore rest before.toList) : before.utf8ByteSize = before.toList.length := by
  rw [← utf8ByteSize_ofList h.utf8Size_eq_one, String.ofList_toList]

end Bytes

/-- A line feed between two texts cuts them apart. If the first fails, the whole fails with its error;
else the second is read as if alone, and its tokens or its error are moved behind the first and the
line feed. The tokens of the first are followed by those of the second in the place of the `eof` that
ends them. -/
theorem tokenize_append_newline (a b : String) :
    tokenize (a ++ "\n" ++ b) =
      (match tokenize a, tokenize b with
      | .error e, _ => .error e
      | .ok _, .error e => .error (e.shift (a.utf8ByteSize + 1) (a.toList.count '\n' + 1))
      | .ok ts, .ok us => .ok (ts.dropLast ++ us.map (mapLine (· + (a.toList.count '\n' + 1))))) ∧
    ∀ ts, tokenize a = .ok ts → ∃ line, ts = ts.dropLast ++ [⟨.eof, line⟩] := by
  refine ⟨?_, fun ts hts => ?_⟩
  · rw [tokenize_newline]
    cases ha : tokenize a with
    | error e => rfl
    | ok ts =>
        cases tokenize b with
        | error e =>
            dsimp only
            rw [(cutBefore_of_lex ha).utf8ByteSize_eq]
        | ok us => rfl
  · obtain ⟨body, rfl, _⟩ := exists_of_lex hts
    exact ⟨1 + a.toList.count '\n', by rw [List.dropLast_concat]⟩

end Token

end Abacus
