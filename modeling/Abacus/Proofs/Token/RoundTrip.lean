import Mathlib
import Abacus.Proofs.Number.Bits
import Abacus.Proofs.Number.ReadBack
import Abacus.Proofs.Token.Seams

/-!
Tokens can be read back from their texts. The text of a token is one lexeme, whatever the kind of the
token, and a blank behind it keeps it from running into the next one. What is left out are the
numbers that no literal spells, and the names that are none.
-/
namespace Abacus.Token

/-- A text is one lexeme, and a token of the given kind. -/
inductive Lexes : List Char → Kind → Prop where
  | intro {first : Char} {tail : List Char} {kind : Kind} : ¬ isSeparator first →
      lexemeTail first tail = tail → ofLexeme first tail = .ok kind → Lexes (first :: tail) kind

theorem Lexes.lex_eq {cs : List Char} {kind : Kind} (h : Lexes cs kind) (position line : Nat) :
    lex position line cs = .ok [⟨kind, line⟩, ⟨.eof, line⟩] := by
  cases h with
  | intro hfirst htail hkind =>
      rw [lex_lexeme _ _ hfirst, htail, hkind, List.drop_length, lex_nil]
      rfl

theorem Lexes.count_newline {cs : List Char} {kind : Kind} (h : Lexes cs kind) :
    cs.count '\n' = 0 := by
  cases h with
  | @intro first tail kind hfirst htail _ =>
      rw [List.count_cons_of_ne (ne_newline_of_not_isSeparator hfirst), ← htail]
      exact count_newline_lexemeTail first tail

section Digits

variable {first : Char} {tail fraction : List Char}

theorem not_isSeparator_of_isDigit (h : first.isDigit) : ¬ isSeparator first := by
  intro hsep
  rw [isDigit_of_isSeparator hsep] at h
  cases h

theorem ofNumber_digits {digits : List Char} (h : ∀ c ∈ digits, c.isDigit) :
    ofNumber digits = .ok (.integer (Decimal.ofDigits digits []).toFloat) := by
  have htake : digits.takeWhile Char.isDigit = digits := List.takeWhile_eq_self_iff.2 h
  have hdrop : digits.dropWhile Char.isDigit = [] := List.dropWhile_eq_nil_iff.2 h
  simp only [ofNumber, htake, hdrop]

theorem ofNumber_pointed {digits run : List Char} (h : ∀ c ∈ digits, c.isDigit) :
    ofNumber (digits ++ '.' :: run) =
      if run.contains '.' then .error .twoPoints
      else .ok (.float (Decimal.ofDigits digits run).toFloat) := by
  have htake : (digits ++ '.' :: run).takeWhile Char.isDigit = digits := by
    rw [List.takeWhile_append_of_pos h]
    simp
  have hdrop : (digits ++ '.' :: run).dropWhile Char.isDigit = '.' :: run := by
    rw [List.dropWhile_append_of_pos h]
    simp
  simp only [ofNumber, htake, hdrop]

theorem lexes_integer (hfirst : first.isDigit) (htail : ∀ c ∈ tail, c.isDigit) :
    Lexes (first :: tail) (.integer (Decimal.ofDigits (first :: tail) []).toFloat) := by
  refine .intro (not_isSeparator_of_isDigit hfirst) ?_ ?_
  · have htake : tail.takeWhile Char.isDigit = tail := List.takeWhile_eq_self_iff.2 htail
    have hdrop : tail.dropWhile Char.isDigit = [] := List.dropWhile_eq_nil_iff.2 htail
    simp [lexemeTail, hfirst, hdrop, htake]
  · rw [ofLexeme, if_pos hfirst]
    exact ofNumber_digits (List.forall_mem_cons.2 ⟨hfirst, htail⟩)

theorem lexes_float (hfirst : first.isDigit) (htail : ∀ c ∈ tail, c.isDigit)
    (hf : ∀ c ∈ fraction, c.isDigit) :
    Lexes (first :: (tail ++ '.' :: fraction))
      (.float (Decimal.ofDigits (first :: tail) fraction).toFloat) := by
  refine .intro (not_isSeparator_of_isDigit hfirst) ?_ ?_
  · have htake : (tail ++ '.' :: fraction).takeWhile Char.isDigit = tail := by
      rw [takeWhile_append_cons rfl]
      exact List.takeWhile_eq_self_iff.2 htail
    have hdrop : (tail ++ '.' :: fraction).dropWhile Char.isDigit = '.' :: fraction := by
      rw [dropWhile_append_cons rfl, List.dropWhile_eq_nil_iff.2 htail]
      rfl
    have hpart : fraction.takeWhile isFractionPart = fraction := by
      apply List.takeWhile_eq_self_iff.2
      intro c hc
      simp [isFractionPart, hf c hc]
    simp [lexemeTail, hfirst, hdrop, htake, hpart]
  · have hpoint : ¬ fraction.contains '.' := by
      rw [List.contains_iff_mem]
      exact fun h => absurd (hf '.' h) (by decide)
    rw [ofLexeme, if_pos hfirst, ← List.cons_append,
      ofNumber_pointed (List.forall_mem_cons.2 ⟨hfirst, htail⟩), if_neg hpoint]

end Digits

section Numbers

theorem exists_toDigits (n : Nat) :
    ∃ first tail, Nat.toDigits 10 n = first :: tail ∧ first.isDigit ∧ ∀ c ∈ tail, c.isDigit := by
  obtain ⟨first, tail, hdigits⟩ := List.exists_cons_of_ne_nil (Nat.toDigits_ne_nil (n := n))
  have hall : ∀ c ∈ first :: tail, c.isDigit := by
    intro c hc
    rw [← hdigits] at hc
    exact Nat.isDigit_of_mem_toDigits (by decide : 0 < 10) (Nat.le_refl 10) hc
  exact ⟨first, tail, hdigits, List.forall_mem_cons.1 hall⟩

variable {x : Float}

/-- The text of a number is a whole literal if it has no fraction. -/
theorem lexes_text_whole (h : x.toBits.toNat < Magnitude.infinity)
    (hplaces : (Number.shortest x.toBits.toNat).places = 0) :
    Lexes (Number.text x).toList (.integer x) := by
  have hvalue := Decimal.toFloat_eq_of_pattern (Number.pattern_shortest h)
  rw [Number.text_eq h, Decimal.toList_text_whole hplaces]
  generalize Number.shortest x.toBits.toNat = d at hplaces hvalue
  obtain ⟨first, tail, hdigits, hfirst, htail⟩ := exists_toDigits d.coefficient
  have hread : Decimal.ofDigits (first :: tail) [] = d := by
    rw [← hdigits, Decimal.ofDigits_toDigits, ← hplaces]
  have hlexes := lexes_integer hfirst htail
  rw [hread, hvalue] at hlexes
  rw [hdigits]
  exact hlexes

theorem lexes_text_fraction (h : x.toBits.toNat < Magnitude.infinity)
    (hplaces : (Number.shortest x.toBits.toNat).places ≠ 0) :
    Lexes (Number.text x).toList (.float x) := by
  have hpattern := Number.pattern_shortest h
  rw [Number.text_eq h, Decimal.toList_text_fraction hplaces]
  generalize Number.shortest x.toBits.toNat = d at hplaces hpattern
  obtain ⟨first, tail, hdigits, hfirst, htail⟩ :=
    exists_toDigits (d.coefficient / Nat.pow 10 d.places)
  have hread := Decimal.ofDigits_fractionDigits d.coefficient d.places (Nat.pos_of_ne_zero hplaces)
  have hfraction : ∀ c ∈ Decimal.fractionDigits (d.coefficient % Nat.pow 10 d.places) d.places,
      c.isDigit := fun _ => Decimal.isDigit_of_mem_fractionDigits d.places
  have hlexes := lexes_float hfirst htail hfraction
  rw [← hdigits, hread, Decimal.toFloat_eq_of_pattern hpattern] at hlexes
  rw [hdigits]
  exact hlexes

/-- The text of a number without a sign is a literal of that number. -/
theorem lexes_text (h : x.toBits.toNat < Magnitude.infinity) :
    Lexes (Number.text x).toList (.integer x) ∨ Lexes (Number.text x).toList (.float x) := by
  by_cases hplaces : (Number.shortest x.toBits.toNat).places = 0
  · exact .inl (lexes_text_whole h hplaces)
  · exact .inr (lexes_text_fraction h hplaces)

theorem lexes_text_integer (h : x.toBits.toNat < Magnitude.infinity)
    (hwhole : Magnitude.unitsInOne ∣ Magnitude.units x.toBits.toNat) :
    Lexes (Number.text x).toList (.integer x) :=
  lexes_text_whole h (Number.places_shortest h hwhole)

/-- The text of a fractional literal has a point, if need be with a zero behind it. -/
theorem lexes_floatText (h : x.toBits.toNat < Magnitude.infinity) :
    Lexes (Kind.floatText x).toList (.float x) := by
  by_cases hplaces : (Number.shortest x.toBits.toNat).places = 0
  · have hpattern := Number.pattern_shortest h
    rw [Kind.floatText, Number.text_eq h]
    generalize Number.shortest x.toBits.toNat = d at hplaces hpattern
    obtain ⟨first, tail, hdigits, hfirst, htail⟩ := exists_toDigits d.coefficient
    have htext : d.text.toList = first :: tail := (Decimal.toList_text_whole hplaces).trans hdigits
    have hpoint : ¬ d.text.toList.contains '.' := by
      rw [htext, List.contains_iff_mem]
      intro hmem
      have hdigit : ∀ c ∈ first :: tail, c.isDigit := List.forall_mem_cons.2 ⟨hfirst, htail⟩
      exact absurd (hdigit '.' hmem) (by decide)
    have hread : (Decimal.ofDigits (first :: tail) ['0']).pattern = x.toBits.toNat := by
      rw [← hdigits, Decimal.pattern_ofDigits_zero, ← hplaces]
      exact hpattern
    have hlexes : Lexes (first :: (tail ++ '.' :: ['0'])) _ := lexes_float hfirst htail (by simp)
    rw [Decimal.toFloat_eq_of_pattern hread] at hlexes
    rw [if_neg hpoint, String.toList_append, htext]
    exact hlexes
  · have hpoint : (Number.text x).toList.contains '.' := by
      rw [Number.text_eq h, Decimal.toList_text_fraction hplaces]
      simp
    rw [Kind.floatText, if_pos hpoint]
    exact lexes_text_fraction h hplaces

end Numbers

/-- A name is a word of letters, digits and underscores that does not start with a digit and is not
reserved. -/
structure IsName (name : String) : Prop where
  word : ∃ first tail, name.toList = first :: tail ∧ (first.isAlpha ∨ first = '_') ∧
    ∀ c ∈ tail, c.isAlphanum ∨ c = '_'
  free : name ≠ "var" ∧ name ≠ "if"

/-- The kinds of token that a text can spell: a number must be finite and without a sign, and whole
if its literal has no point. Blanks and the end of the text are no tokens of it. -/
def Kind.Writable : Kind → Prop
  | float x => x.isFinite ∧ x.toBits.toNat < Number.signBit
  | integer x => x.isFinite ∧ x.toBits.toNat < Number.signBit ∧
      Magnitude.unitsInOne ∣ Magnitude.units x.toBits.toNat
  | identifier name => IsName name
  | newline | blank | eof => False
  | _ => True

theorem isDigit_of_isNameStart {c : Char} (h : isNameStart c) : c.isDigit = false := by
  have hletter : 65 ≤ c.toNat := by
    simp only [isNameStart, Char.isAlpha, Char.isUpper, Char.isLower, Bool.or_eq_true,
      Bool.and_eq_true, decide_eq_true_eq, beq_iff_eq, ge_iff_le, UInt32.le_iff_toNat_le] at h
    obtain (⟨h, _⟩ | ⟨h, _⟩) | rfl := h
    · exact h
    · exact Nat.le_trans (by decide) h
    · decide
  rw [← Bool.not_eq_true, Char.isDigit_iff_toNat]
  rintro ⟨_, h⟩
  change c.toNat ≤ 57 at h
  omega

theorem not_isSeparator_of_isNameStart {c : Char} (h : isNameStart c) : ¬ isSeparator c := by
  intro hsep
  obtain rfl | rfl | rfl | rfl | rfl := isSeparator_iff.1 hsep <;> cases h

theorem lexes_name {name : String} (h : IsName name) : Lexes name.toList (.identifier name) := by
  obtain ⟨⟨first, tail, hname, hfirst, htail⟩, hvar, hif⟩ := h
  have hstart : isNameStart first := by simpa [isNameStart] using hfirst
  have hpart : tail.takeWhile isNamePart = tail := by
    apply List.takeWhile_eq_self_iff.2
    intro c hc
    simpa [isNamePart] using htail c hc
  have hkind : ofName (first :: tail) = .identifier name := by
    have hvar' : name.toList ≠ ['v', 'a', 'r'] := fun h => hvar (String.toList_inj.1 h)
    have hif' : name.toList ≠ ['i', 'f'] := fun h => hif (String.toList_inj.1 h)
    rw [← hname, ofName, if_neg hvar', if_neg hif', String.ofList_toList]
  rw [hname]
  refine .intro (not_isSeparator_of_isNameStart hstart) ?_ ?_
  · simp [lexemeTail, isDigit_of_isNameStart hstart, hstart, hpart]
  · simp [ofLexeme, isDigit_of_isNameStart hstart, hstart, hkind]

theorem Kind.Writable.lexes {kind : Kind} (h : kind.Writable) : Lexes kind.text.toList kind := by
  cases kind with
  | float x => exact lexes_floatText ((Number.lt_infinity_iff x).2 h)
  | integer x => exact lexes_text_integer ((Number.lt_infinity_iff x).2 ⟨h.1, h.2.1⟩) h.2.2
  | identifier name => exact lexes_name h
  | newline | blank | eof => exact h.elim
  | keyword word => cases word <;> exact .intro (by decide) rfl rfl
  | plus | minus | star | slash | leftParen | rightParen | leftBrace | rightBrace | comma | assign
  | equal | notEqual | bang | and | or | less | greater => exact .intro (by decide) rfl rfl

theorem lex_intercalate_text {kinds : List Kind} (h : ∀ kind ∈ kinds, kind.Writable)
    (position line : Nat) :
    lex position line (" ".intercalate (kinds.map Kind.text)).toList =
      .ok (kinds.map (⟨·, line⟩) ++ [⟨.eof, line⟩]) := by
  induction kinds generalizing position with
  | nil => exact lex_nil position line
  | cons kind kinds ih =>
      obtain ⟨hkind, hkinds⟩ := List.forall_mem_cons.1 h
      have hlexes := hkind.lexes
      cases kinds with
      | nil =>
          simp only [List.map_cons, List.map_nil, String.intercalate_singleton]
          exact hlexes.lex_eq position line
      | cons next kinds =>
          have htext : (" ".intercalate ((kind :: next :: kinds).map Kind.text)).toList =
              kind.text.toList ++ ' ' :: (" ".intercalate ((next :: kinds).map Kind.text)).toList := by
            simp
          have hline : line + (kind.text.toList ++ [' ']).count '\n' = line := by
            rw [List.count_append, hlexes.count_newline]
            rfl
          rw [htext, lex_append_cons (by rfl : isSeparator ' '), hlexes.lex_eq, hline]
          dsimp only
          rw [ih hkinds]
          rfl

/-- Tokens are read back from their texts with a blank between them. -/
theorem tokenize_intercalate_text {kinds : List Kind} (h : ∀ kind ∈ kinds, kind.Writable) :
    tokenize (" ".intercalate (kinds.map Kind.text)) =
      .ok (kinds.map (⟨·, 1⟩) ++ [⟨.eof, 1⟩]) :=
  lex_intercalate_text h 0 1

theorem tokenize_intercalate_text_numbers :
    let one := Float.ofBits 0x3FF0000000000000
    let tenth := Float.ofBits 0x3FB999999999999A
    let kinds : List Kind := [.keyword .var, .identifier "var1_", .assign, .equal, .float one,
      .integer one, .bang, .assign, .minus, .float tenth]
    (∀ kind ∈ kinds, kind.Writable) ∧
      tokenize (" ".intercalate (kinds.map Kind.text)) =
        .ok (kinds.map (⟨·, 1⟩) ++ [⟨.eof, 1⟩]) := by
  intro one tenth kinds
  have hone : one.isFinite ∧ one.toBits.toNat < Number.signBit := by
    decide +kernel
  have htenth : tenth.isFinite ∧ tenth.toBits.toNat < Number.signBit := by
    decide +kernel
  have hwhole : Magnitude.unitsInOne ∣ Magnitude.units one.toBits.toNat := by
    decide +kernel
  have hname : IsName "var1_" := by
    refine ⟨⟨'v', ['a', 'r', '1', '_'], rfl, .inl rfl, ?_⟩, by decide⟩
    simp [Char.isAlphanum, Char.isAlpha, Char.isUpper, Char.isLower, Char.isDigit]
  have h : ∀ kind ∈ kinds, kind.Writable := by
    simp [kinds, Kind.Writable, hone, htenth, hwhole, hname]
  exact ⟨h, tokenize_intercalate_text h⟩

end Abacus.Token
