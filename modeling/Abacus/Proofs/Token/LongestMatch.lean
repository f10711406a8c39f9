import Abacus.Proofs.Token.RoundTrip

/-!
The lexical format, said without the lexer. A text is white space and lexemes; a lexeme is the longest
prefix of what is left that any rule takes, and it must be a token: the rule for numbers takes any run
of digits and points behind the first point, of which only those without a further point are tokens.
A text is cut into tokens exactly if it can be laid out in this way, and the layout fixes the tokens
and their lines.
-/
namespace Abacus.Token

/-- The operators and punctuation marks. -/
def Kind.isSymbol : Kind → Bool
  | plus | minus | star | slash | leftParen | rightParen | leftBrace | rightBrace | comma | assign
  | equal | notEqual | bang | and | or | less | greater => true
  | _ => false

/-- A text is a lexeme and stands for a token of the given kind. -/
inductive Lexeme : List Char → Kind → Prop where
  | symbol (kind : Kind) : kind.isSymbol → Lexeme kind.text.toList kind
  | keyword (word : Keyword) : Lexeme word.text.toList (.keyword word)
  | name {name : String} : IsName name → Lexeme name.toList (.identifier name)
  | integer {digits : List Char} : digits ≠ [] → (∀ c ∈ digits, c.isDigit) →
      Lexeme digits (.integer (Decimal.ofDigits digits []).toFloat)
  | float {digits fraction : List Char} : digits ≠ [] → (∀ c ∈ digits, c.isDigit) →
      (∀ c ∈ fraction, c.isDigit) →
      Lexeme (digits ++ '.' :: fraction) (.float (Decimal.ofDigits digits fraction).toFloat)

/-- The texts that some rule takes. -/
inductive Matched : List Char → Prop where
  | symbol (kind : Kind) : kind.isSymbol → Matched kind.text.toList
  | word {first : Char} {tail : List Char} : first.isAlpha ∨ first = '_' →
      (∀ c ∈ tail, c.isAlphanum ∨ c = '_') → Matched (first :: tail)
  | digits {digits : List Char} : digits ≠ [] → (∀ c ∈ digits, c.isDigit) → Matched digits
  | number {digits run : List Char} : digits ≠ [] → (∀ c ∈ digits, c.isDigit) →
      (∀ c ∈ run, c.isDigit ∨ c = '.') → Matched (digits ++ '.' :: run)

/-- No rule takes more of a text than the lexeme at its front. -/
def IsLongest (lexeme rest : List Char) : Prop :=
  ∀ part, part <+: lexeme ++ rest → Matched part → part.length ≤ lexeme.length

/-- White space: blanks, tabs, form feeds, carriage returns and line feeds. -/
def IsGap (gap : List Char) : Prop :=
  ∀ c ∈ gap, c = ' ' ∨ c = '\t' ∨ c = '\x0c' ∨ c = '\r' ∨ c = '\n'

/-- A lexeme with the kind of its token, and the white space behind it. -/
structure Piece where
  lexeme : List Char
  kind : Kind
  gap : List Char

namespace Piece

/-- The text that pieces are cut from. -/
def text : List Piece → List Char
  | [] => []
  | p :: rest => p.lexeme ++ (p.gap ++ text rest)

/-- The tokens of pieces that stand behind the text `before`, closed by one `eof`. -/
def tokens (before : List Char) : List Piece → List Token
  | [] => [⟨.eof, 1 + before.count '\n'⟩]
  | p :: rest => ⟨p.kind, 1 + before.count '\n'⟩ :: tokens (before ++ p.lexeme ++ p.gap) rest

/-- Pieces are cut as the rules say. -/
def WellCut : List Piece → Prop
  | [] => True
  | p :: rest => Lexeme p.lexeme p.kind ∧ IsLongest p.lexeme (p.gap ++ text rest) ∧ IsGap p.gap ∧
      WellCut rest

end Piece

theorem isGap_iff {gap : List Char} : IsGap gap ↔ ∀ c ∈ gap, isSeparator c := by
  refine forall₂_congr fun c _ => ?_
  rw [isSeparator_iff]
  tauto

section Longest

variable {c : Char} {cs part : List Char}

theorem lexemeTail_word (h : c.isAlpha ∨ c = '_') : lexemeTail c cs = cs.takeWhile isNamePart := by
  have hstart : isNameStart c := by simpa [isNameStart] using h
  simp [lexemeTail, isDigit_of_isNameStart hstart, hstart]

theorem lexemeTail_digits (h : c.isDigit) (hd : ∀ d ∈ part, d.isDigit) (hp : part <+: cs) :
    part <+: lexemeTail c cs := by
  obtain ⟨rest, rfl⟩ := hp
  have htake : part <+: (part ++ rest).takeWhile Char.isDigit := by
    rw [List.takeWhile_append_of_pos hd]
    exact List.prefix_append _ _
  unfold lexemeTail
  rw [if_pos h]
  split
  · exact htake.trans (List.prefix_append _ _)
  · exact htake

theorem lexemeTail_number {digits after : List Char} (h : c.isDigit) (hd : ∀ d ∈ digits, d.isDigit) :
    lexemeTail c (digits ++ '.' :: after) = digits ++ '.' :: after.takeWhile isFractionPart := by
  have htake : (digits ++ '.' :: after).takeWhile Char.isDigit = digits := by
    rw [List.takeWhile_append_of_pos hd]
    simp
  have hdrop : (digits ++ '.' :: after).dropWhile Char.isDigit = '.' :: after := by
    rw [List.dropWhile_append_of_pos hd]
    simp
  unfold lexemeTail
  rw [if_pos h]
  simp only [hdrop, htake]

/-- The tail of a lexeme holds all that a rule can take behind its first character. -/
theorem isPrefix_of_matched (hm : Matched part) (h : part <+: c :: cs) :
    part <+: c :: lexemeTail c cs := by
  cases hm with
  | symbol kind hk =>
      cases kind with
      | equal | notEqual | and | or =>
          obtain ⟨rfl, rest, rfl⟩ := List.cons_prefix_cons.1 h
          exact List.prefix_refl _
      | plus | minus | star | slash | leftParen | rightParen | leftBrace | rightBrace | comma
      | assign | bang | less | greater =>
          obtain ⟨rfl, _⟩ := List.cons_prefix_cons.1 h
          exact List.cons_prefix_cons.2 ⟨rfl, List.nil_prefix⟩
      | float _ | integer _ | keyword _ | identifier _ | newline | blank | eof => cases hk
  | word hfirst htail =>
      obtain ⟨rfl, rest, rfl⟩ := List.cons_prefix_cons.1 h
      refine List.cons_prefix_cons.2 ⟨rfl, ?_⟩
      rw [lexemeTail_word hfirst, List.takeWhile_append_of_pos]
      · exact List.prefix_append _ _
      · intro c hc
        simpa [isNamePart] using htail c hc
  | digits hne hdigits =>
      obtain ⟨d, ds, rfl⟩ := List.exists_cons_of_ne_nil hne
      obtain ⟨rfl, hds⟩ := List.cons_prefix_cons.1 h
      obtain ⟨hd, hall⟩ := List.forall_mem_cons.1 hdigits
      exact List.cons_prefix_cons.2 ⟨rfl, lexemeTail_digits hd hall hds⟩
  | @number digits run hne hdigits hrun =>
      obtain ⟨d, ds, rfl⟩ := List.exists_cons_of_ne_nil hne
      rw [List.cons_append] at h ⊢
      obtain ⟨rfl, rest, rfl⟩ := List.cons_prefix_cons.1 h
      obtain ⟨hd, hall⟩ := List.forall_mem_cons.1 hdigits
      refine List.cons_prefix_cons.2 ⟨rfl, ?_⟩
      rw [List.append_assoc, List.cons_append, lexemeTail_number hd hall,
        List.takeWhile_append_of_pos]
      · rw [← List.cons_append, ← List.append_assoc]
        exact List.prefix_append _ _
      · intro c hc
        simpa [isFractionPart] using hrun c hc

theorem matched_number (h : c.isDigit) : Matched (c :: lexemeTail c cs) := by
  have hdigits : ∀ d ∈ c :: cs.takeWhile Char.isDigit, d.isDigit :=
    List.forall_mem_cons.2 ⟨h, fun _ => List.mem_takeWhile_imp⟩
  unfold lexemeTail
  rw [if_pos h]
  split
  · next after _ =>
    rw [← List.cons_append]
    refine .number (List.cons_ne_nil _ _) hdigits fun d hd => ?_
    simpa [isFractionPart] using List.mem_takeWhile_imp hd
  · exact .digits (List.cons_ne_nil _ _) hdigits

/-- Where a rule takes anything, some rule takes the whole lexeme. -/
theorem matched_lexemeTail {tail : List Char} (hm : Matched (c :: tail)) (h : tail <+: cs) :
    Matched (c :: lexemeTail c cs) := by
  by_cases hdigit : c.isDigit
  · exact matched_number hdigit
  · by_cases hstart : c.isAlpha ∨ c = '_'
    · rw [lexemeTail_word hstart]
      refine .word hstart fun d hd => ?_
      simpa [isNamePart] using List.mem_takeWhile_imp hd
    · have hpart := isPrefix_of_matched hm (List.cons_prefix_cons.2 ⟨rfl, h⟩)
      have hname : ¬ isNameStart c := by simpa [isNameStart] using hstart
      unfold lexemeTail at hpart ⊢
      rw [if_neg hdigit, if_neg hname] at hpart ⊢
      split at hpart
      · exact .symbol .equal rfl
      · exact .symbol .notEqual rfl
      · exact .symbol .and rfl
      · exact .symbol .or rfl
      · obtain ⟨_, htail⟩ := List.cons_prefix_cons.1 hpart
        rw [List.prefix_nil.1 htail] at hm
        exact hm

end Longest

section Lexemes

variable {c : Char} {cs rest lexeme : List Char} {kind : Kind}

theorem Lexeme.matched (h : Lexeme lexeme kind) : Matched lexeme := by
  cases h with
  | symbol kind hk => exact .symbol kind hk
  | keyword word =>
      cases word with
      | var =>
          have htail : ∀ c ∈ ['a', 'r'], c.isAlphanum ∨ c = '_' := by
            simp [Char.isAlphanum, Char.isAlpha, Char.isLower]
          exact .word (.inl rfl) htail
      | cond =>
          have htail : ∀ c ∈ ['f'], c.isAlphanum ∨ c = '_' := by
            simp [Char.isAlphanum, Char.isAlpha, Char.isLower]
          exact .word (.inl rfl) htail
  | name hname =>
      obtain ⟨first, tail, hword, hfirst, htail⟩ := hname.word
      rw [hword]
      exact .word hfirst htail
  | integer hne hdigits => exact .digits hne hdigits
  | float hne hdigits hfraction => exact .number hne hdigits fun c hc => .inl (hfraction c hc)

theorem Lexeme.lexes (h : Lexeme lexeme kind) : Lexes lexeme kind := by
  cases h with
  | symbol kind hk =>
      apply Kind.Writable.lexes
      cases kind <;> trivial
  | keyword word =>
      have hword : (Kind.keyword word).Writable := trivial
      exact hword.lexes
  | name hname => exact lexes_name hname
  | integer hne hdigits =>
      obtain ⟨d, ds, rfl⟩ := List.exists_cons_of_ne_nil hne
      obtain ⟨hd, hds⟩ := List.forall_mem_cons.1 hdigits
      exact lexes_integer hd hds
  | float hne hdigits hfraction =>
      obtain ⟨d, ds, rfl⟩ := List.exists_cons_of_ne_nil hne
      obtain ⟨hd, hds⟩ := List.forall_mem_cons.1 hdigits
      exact lexes_float hd hds hfraction

theorem lexeme_of_ofNumber (hc : c.isDigit) (h : ofNumber (c :: lexemeTail c cs) = .ok kind) :
    Lexeme (c :: lexemeTail c cs) kind := by
  have hdigits : ∀ d ∈ c :: cs.takeWhile Char.isDigit, d.isDigit :=
    List.forall_mem_cons.2 ⟨hc, fun _ => List.mem_takeWhile_imp⟩
  unfold lexemeTail at h ⊢
  rw [if_pos hc] at h ⊢
  split at h
  · rw [← List.cons_append, ofNumber_pointed hdigits] at h
    rw [← List.cons_append]
    split at h
    · cases h
    · next hpoint =>
      cases h
      refine .float (List.cons_ne_nil _ _) hdigits fun d hd => ?_
      have hpart : d.isDigit ∨ d = '.' := by
        simpa [isFractionPart] using List.mem_takeWhile_imp hd
      refine hpart.resolve_right ?_
      rintro rfl
      exact hpoint (List.contains_iff_mem.2 hd)
  · rw [ofNumber_digits hdigits] at h
    cases h
    exact .integer (List.cons_ne_nil _ _) hdigits

theorem lexeme_ofName (hc : c.isAlpha ∨ c = '_') : Lexeme (c :: lexemeTail c cs)
    (ofName (c :: lexemeTail c cs)) := by
  rw [lexemeTail_word hc]
  unfold ofName
  split
  · next hvar =>
    rw [hvar]
    exact .keyword .var
  · next hvar =>
    split
    · next hif =>
      rw [hif]
      exact .keyword .cond
    · next hif =>
      have hname : IsName (String.ofList (c :: cs.takeWhile isNamePart)) := by
        refine ⟨⟨c, cs.takeWhile isNamePart, String.toList_ofList, hc, fun d hd => ?_⟩, ?_, ?_⟩
        · simpa [isNamePart] using List.mem_takeWhile_imp hd
        · intro h
          exact hvar (String.ofList_injective h)
        · intro h
          exact hif (String.ofList_injective h)
      have hlexeme := Lexeme.name hname
      rw [String.toList_ofList] at hlexeme
      exact hlexeme

theorem lexeme_of_ofSymbol (h : ofSymbol lexeme = .ok kind) : Lexeme lexeme kind := by
  obtain ⟨hkind, rfl⟩ : kind.isSymbol ∧ lexeme = kind.text.toList := by
    unfold ofSymbol at h
    split at h <;> cases h <;> exact ⟨rfl, rfl⟩
  exact .symbol kind hkind

theorem Lexeme.kind_ne (h : Lexeme lexeme kind) :
    kind ≠ .eof ∧ kind ≠ .newline ∧ kind ≠ .blank := by
  cases h with
  | symbol kind hk =>
      refine ⟨?_, ?_, ?_⟩ <;> rintro rfl <;> cases hk
  | keyword _ | name _ | integer _ _ | float _ _ _ => exact ⟨nofun, nofun, nofun⟩

/-- A lexeme stands for the token that the lexer makes of it. -/
theorem lexeme_of_ofLexeme (h : ofLexeme c (lexemeTail c cs) = .ok kind) :
    Lexeme (c :: lexemeTail c cs) kind := by
  unfold ofLexeme at h
  split at h
  · next hc => exact lexeme_of_ofNumber hc h
  · split at h
    · next hc =>
      cases h
      exact lexeme_ofName (by simpa [isNameStart] using hc)
    · exact lexeme_of_ofSymbol h

theorem isLongest_lexemeTail (c : Char) (cs : List Char) :
    IsLongest (c :: lexemeTail c cs) (cs.drop (lexemeTail c cs).length) := by
  intro part hpart hm
  rw [List.cons_append, lexemeTail_append_drop] at hpart
  exact (isPrefix_of_matched hm hpart).length_le

/-- The longest lexeme at the front of a text is the one that the lexer takes. -/
theorem lexemeTail_of_isLongest {tail : List Char} (hm : Matched (c :: tail))
    (h : IsLongest (c :: tail) rest) : lexemeTail c (tail ++ rest) = tail := by
  have hfront : c :: tail <+: c :: lexemeTail c (tail ++ rest) :=
    isPrefix_of_matched hm (List.cons_prefix_cons.2 ⟨rfl, List.prefix_append _ _⟩)
  have hwhole : c :: lexemeTail c (tail ++ rest) <+: c :: tail ++ rest :=
    List.cons_prefix_cons.2 ⟨rfl, lexemeTail_isPrefix _ _⟩
  have hlength := h _ hwhole (matched_lexemeTail hm (List.prefix_append _ _))
  exact (List.cons.inj (hfront.eq_of_length_le hlength)).2.symm

end Lexemes

section Cutting

/-- White space moves the place of what follows, and nothing else. -/
theorem lex_gap {gap : List Char} (h : IsGap gap) (position line : Nat) (cs : List Char) :
    lex position line (gap ++ cs) = lex (position + gap.length) (line + gap.count '\n') cs := by
  induction gap generalizing position line with
  | nil => rfl
  | cons c gap ih =>
      obtain ⟨hc, hgap⟩ := List.forall_mem_cons.1 (isGap_iff.1 h)
      have hcount : line + [c].count '\n' + gap.count '\n' = line + (c :: gap).count '\n' := by
        rw [Nat.add_assoc, ← List.count_append, List.singleton_append]
      have hlength : position + 1 + gap.length = position + (c :: gap).length := by
        rw [List.length_cons, Nat.add_assoc, Nat.add_comm 1]
      rw [List.cons_append, lex_separator _ _ hc, ih (isGap_iff.2 hgap), hcount, hlength]

/-- The lexer takes a well cut text apart where it is cut. -/
theorem lex_text {pieces : List Piece} (h : Piece.WellCut pieces) (position : Nat)
    (before : List Char) :
    lex position (1 + before.count '\n') (Piece.text pieces) = .ok (Piece.tokens before pieces) := by
  induction pieces generalizing position before with
  | nil => exact lex_nil _ _
  | cons p pieces ih =>
      obtain ⟨lexeme, kind, gap⟩ := p
      obtain ⟨hlexeme, hlongest, hgap, hpieces⟩ := h
      have hcount : 1 + before.count '\n' + gap.count '\n' =
          1 + (before ++ lexeme ++ gap).count '\n' := by
        rw [List.count_append, List.count_append, hlexeme.lexes.count_newline, Nat.add_zero,
          Nat.add_assoc]
      cases hlexeme.lexes with
      | @intro first tail _ hfirst _ hkind =>
          have htail := lexemeTail_of_isLongest hlexeme.matched hlongest
          simp only [Piece.text, List.cons_append]
          rw [lex_lexeme _ _ hfirst, htail, hkind]
          dsimp only
          rw [List.drop_left, lex_gap hgap, hcount, ih hpieces]
          rfl

/-- A text that the lexer takes is white space and well cut pieces. -/
theorem exists_pieces_of_lex {position : Nat} {before cs : List Char} {ts : List Token}
    (h : lex position (1 + before.count '\n') cs = .ok ts) :
    ∃ gap pieces, cs = gap ++ Piece.text pieces ∧ IsGap gap ∧ Piece.WellCut pieces ∧
      ts = Piece.tokens (before ++ gap) pieces := by
  induction cs using cut_induction generalizing position before ts with
  | nil =>
      rw [lex_nil] at h
      cases h
      exact ⟨[], [], rfl, nofun, trivial, by rw [List.append_nil]; rfl⟩
  | separator c cs hc ih =>
      rw [lex_separator _ _ hc, Nat.add_assoc, ← List.count_append] at h
      obtain ⟨gap, pieces, rfl, hgap, hpieces, rfl⟩ := ih h
      refine ⟨c :: gap, pieces, rfl, ?_, hpieces, ?_⟩
      · exact isGap_iff.2 (List.forall_mem_cons.2 ⟨hc, isGap_iff.1 hgap⟩)
      · rw [List.append_assoc, List.singleton_append]
  | lexeme c cs hc ih =>
      obtain ⟨kind, tokens, hkind, hrest, rfl⟩ := lex_lexeme_eq_ok hc h
      have hcount : (before ++ c :: lexemeTail c cs).count '\n' = before.count '\n' := by
        rw [List.count_append, List.count_cons_of_ne (ne_newline_of_not_isSeparator hc),
          count_newline_lexemeTail, Nat.add_zero]
      rw [← hcount] at hrest
      obtain ⟨gap, pieces, hcut, hgap, hpieces, rfl⟩ := ih hrest
      refine ⟨[], ⟨c :: lexemeTail c cs, kind, gap⟩ :: pieces, ?_, nofun, ?_, ?_⟩
      · simp only [Piece.text, List.nil_append, List.cons_append, ← hcut, lexemeTail_append_drop]
      · refine ⟨lexeme_of_ofLexeme hkind, ?_, hgap, hpieces⟩
        rw [← hcut]
        exact isLongest_lexemeTail c cs
      · rw [List.append_nil]
        rfl

/-- The tokens of a well cut text end with an `eof` on its last line and hold no other, and no
white space. -/
theorem Piece.exists_tokens_eq {pieces : List Piece} (h : WellCut pieces) (before : List Char) :
    ∃ body, tokens before pieces = body ++ [⟨.eof, 1 + (before ++ text pieces).count '\n'⟩] ∧
      ∀ t ∈ body, t.kind ≠ .eof ∧ t.kind ≠ .newline ∧ t.kind ≠ .blank := by
  induction pieces generalizing before with
  | nil => exact ⟨[], by rw [text, List.append_nil]; rfl, nofun⟩
  | cons p pieces ih =>
      obtain ⟨hlexeme, _, _, hpieces⟩ := h
      obtain ⟨body, hbody, hkinds⟩ := ih hpieces (before ++ p.lexeme ++ p.gap)
      refine ⟨⟨p.kind, 1 + before.count '\n'⟩ :: body, ?_,
        List.forall_mem_cons.2 ⟨hlexeme.kind_ne, hkinds⟩⟩
      rw [tokens, hbody, text, List.append_assoc, List.append_assoc]
      rfl

theorem Piece.le_line_of_mem_tokens {before : List Char} {pieces : List Piece} {t : Token}
    (h : t ∈ tokens before pieces) : 1 + before.count '\n' ≤ t.line := by
  induction pieces generalizing before with
  | nil =>
      obtain rfl := List.mem_singleton.1 h
      exact Nat.le_refl _
  | cons p pieces ih =>
      obtain rfl | h := List.mem_cons.1 h
      · exact Nat.le_refl _
      · have hline := ih h
        rw [List.count_append, List.count_append] at hline
        omega

theorem Piece.pairwise_line_tokens (before : List Char) (pieces : List Piece) :
    (tokens before pieces).Pairwise (·.line ≤ ·.line) := by
  induction pieces generalizing before with
  | nil => exact List.pairwise_singleton _ _
  | cons p pieces ih =>
      refine List.pairwise_cons.2 ⟨fun t ht => ?_, ih _⟩
      have hline := le_line_of_mem_tokens ht
      rw [List.count_append, List.count_append] at hline
      show 1 + before.count '\n' ≤ t.line
      omega

end Cutting

/-- A text has the tokens that it can be laid out as, and no others. They end with an `eof`, hold no
white space, and stand in the order of their lines. -/
theorem tokenize_eq_ok_iff_cut (source : String) (ts : List Token) :
    (tokenize source = .ok ts ↔
      ∃ gap pieces, source.toList = gap ++ Piece.text pieces ∧ IsGap gap ∧ Piece.WellCut pieces ∧
        ts = Piece.tokens gap pieces) ∧
    (tokenize source = .ok ts →
      (∃ body, ts = body ++ [⟨.eof, 1 + source.toList.count '\n'⟩] ∧
        ∀ t ∈ body, t.kind ≠ .eof ∧ t.kind ≠ .newline ∧ t.kind ≠ .blank) ∧
      ts.Pairwise (·.line ≤ ·.line)) := by
  have hcut : tokenize source = .ok ts →
      ∃ gap pieces, source.toList = gap ++ Piece.text pieces ∧ IsGap gap ∧ Piece.WellCut pieces ∧
        ts = Piece.tokens gap pieces := by
    intro h
    have h : lex 0 (1 + [].count '\n') source.toList = .ok ts := h
    simpa using exists_pieces_of_lex h
  refine ⟨⟨hcut, ?_⟩, fun h => ?_⟩
  · rintro ⟨gap, pieces, htext, hgap, hpieces, rfl⟩
    rw [tokenize, htext, lex_gap hgap]
    exact lex_text hpieces _ gap
  · obtain ⟨gap, pieces, htext, _, hpieces, rfl⟩ := hcut h
    rw [htext]
    exact ⟨Piece.exists_tokens_eq hpieces gap, Piece.pairwise_line_tokens gap pieces⟩

end Abacus.Token
