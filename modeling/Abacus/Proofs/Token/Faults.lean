import Abacus.Proofs.Token.Places

/-!
What an error of the lexer tells. The text before it can be cut into tokens, the error stands where
that text ends, and what follows there fixes the error: a character that starts no token, one half of a
doubled operator, or a number with a second point. An error is reported exactly if the text has such a
place, so nothing behind the first one matters.
-/
namespace Abacus

namespace Token

/-- Digits, a point, and a run of digits and points. -/
def IsPointedRun (part : List Char) : Prop :=
  ∃ digits run, part = digits ++ '.' :: run ∧ digits ≠ [] ∧ (∀ c ∈ digits, c.isDigit) ∧
    ∀ c ∈ run, c.isDigit ∨ c = '.'

end Token

namespace LexError

open Token

/-- The text that an error is about. -/
def blamed : LexError → List Char
  | invalidCharacter character _ _ => [character]
  | loneOperator operator _ _ => [operator]
  | malformedNumber literal _ => literal.toList

/-- What the text from an error on looks like. -/
def Blames (rest : List Char) : LexError → Prop
  | invalidCharacter c _ _ => rest.head? = some c ∧
      (∀ lexeme kind, Lexeme lexeme kind → lexeme.head? ≠ some c) ∧ ¬ IsGap [c] ∧ c ≠ '&' ∧ c ≠ '|'
  | loneOperator c _ _ => rest.head? = some c ∧ (c = '&' ∨ c = '|') ∧ rest.tail.head? ≠ some c
  | malformedNumber literal _ => literal.toList <+: rest ∧ IsPointedRun literal.toList ∧
      (∀ part, part <+: rest → IsPointedRun part → part.length ≤ literal.toList.length) ∧
      2 ≤ literal.toList.count '.'

/-- Where an error stands in the text, for the errors that tell. -/
def position? : LexError → Option Nat
  | invalidCharacter _ position _ | loneOperator _ position _ => some position
  | malformedNumber _ _ => none

theorem Blames.blamed_isPrefix {rest : List Char} {e : LexError} (h : e.Blames rest) :
    e.blamed <+: rest := by
  have hfront : ∀ {c : Char}, rest.head? = some c → [c] <+: rest := by
    rintro c hc
    obtain ⟨tail, rfl⟩ := List.head?_eq_some_iff.1 hc
    exact List.cons_prefix_cons.2 ⟨rfl, List.nil_prefix⟩
  cases e with
  | invalidCharacter _ _ _ | loneOperator _ _ _ => exact hfront h.1
  | malformedNumber _ _ => exact h.1

end LexError

namespace Token

section Numbers

variable {c : Char} {rest digits run : List Char}

theorem two_le_count_iff (hd : ∀ d ∈ digits, d.isDigit) :
    2 ≤ (digits ++ '.' :: run).count '.' ↔ run.contains '.' := by
  have hnone : digits.count '.' = 0 :=
    List.count_eq_zero_of_not_mem fun hmem => absurd (hd '.' hmem) (by decide)
  rw [List.count_append, hnone, List.count_cons_self, List.contains_iff_mem,
    ← List.count_pos_iff]
  omega

theorem isDigit_of_isPointedRun {tail : List Char} (h : IsPointedRun (c :: tail)) : c.isDigit := by
  obtain ⟨digits, run, hpart, hne, hd, -⟩ := h
  obtain ⟨d, ds, rfl⟩ := List.exists_cons_of_ne_nil hne
  obtain rfl : c = d := (List.cons.inj hpart).1
  exact hd c List.mem_cons_self

theorem isPrefix_of_isPointedRun {part : List Char} (h : IsPointedRun part)
    (hp : part <+: c :: rest) : part <+: c :: lexemeTail c rest := by
  obtain ⟨digits, run, rfl, hne, hd, hrun⟩ := h
  exact isPrefix_of_matched (.number hne hd hrun) hp

theorem isPointedRun_lexemeTail (hc : c.isDigit) :
    (∀ d ∈ c :: lexemeTail c rest, d.isDigit) ∨ IsPointedRun (c :: lexemeTail c rest) := by
  have hdigits : ∀ d ∈ c :: rest.takeWhile Char.isDigit, d.isDigit :=
    List.forall_mem_cons.2 ⟨hc, fun _ => List.mem_takeWhile_imp⟩
  unfold lexemeTail
  rw [if_pos hc]
  split
  · refine .inr ⟨_, _, (List.cons_append ..).symm, List.cons_ne_nil _ _, hdigits, fun d hd => ?_⟩
    simpa [isFractionPart] using List.mem_takeWhile_imp hd
  · exact .inl hdigits

/-- The longest run with a point at the front of a text is the lexeme there. -/
theorem exists_of_longest {part : List Char} (h : IsPointedRun part) (hp : part <+: rest)
    (hlongest : ∀ other, other <+: rest → IsPointedRun other → other.length ≤ part.length) :
    ∃ c tail, rest = c :: tail ∧ c.isDigit ∧ part = c :: lexemeTail c tail := by
  have hpoint : '.' ∈ part := by
    obtain ⟨digits, run, rfl, -⟩ := h
    simp
  obtain ⟨c, ds, rfl⟩ := List.exists_cons_of_ne_nil (List.ne_nil_of_mem hpoint)
  obtain ⟨more, rfl⟩ := hp
  have hc := isDigit_of_isPointedRun h
  have hle : c :: ds <+: c :: lexemeTail c (ds ++ more) :=
    isPrefix_of_isPointedRun h (List.prefix_append _ _)
  refine ⟨c, ds ++ more, rfl, hc, hle.eq_of_length_le ?_⟩
  apply hlongest _ (List.cons_prefix_cons.2 ⟨rfl, lexemeTail_isPrefix _ _⟩)
  refine (isPointedRun_lexemeTail hc).resolve_left fun hdigits => ?_
  exact absurd (hdigits '.' (hle.mem hpoint)) (by decide)

theorem ofLexeme_pointed {tail : List Char} (h : IsPointedRun (c :: tail)) :
    ofLexeme c tail = .error .twoPoints ↔ 2 ≤ (c :: tail).count '.' := by
  have hc := isDigit_of_isPointedRun h
  obtain ⟨digits, run, hpart, -, hd, -⟩ := h
  rw [ofLexeme, if_pos hc, hpart, ofNumber_pointed hd, two_le_count_iff hd]
  split <;> simp_all

end Numbers

section Faults

variable {c : Char} {rest : List Char}

theorem eq_twoPoints_of_ofNumber {lexeme : List Char} {fault : Fault}
    (h : ofNumber lexeme = .error fault) : fault = .twoPoints := by
  unfold ofNumber at h
  split at h
  · cases h
  · split at h <;> cases h
    rfl

theorem twoPoints_iff : ofLexeme c (lexemeTail c rest) = .error .twoPoints ↔
    IsPointedRun (c :: lexemeTail c rest) ∧ 2 ≤ (c :: lexemeTail c rest).count '.' := by
  constructor
  · intro h
    by_cases hc : c.isDigit
    · obtain hdigits | hrun := isPointedRun_lexemeTail hc
      · rw [ofLexeme, if_pos hc, ofNumber_digits hdigits] at h
        cases h
      · exact ⟨hrun, (ofLexeme_pointed hrun).1 h⟩
    · rw [ofLexeme, if_neg hc] at h
      split at h
      · cases h
      · unfold ofSymbol at h
        split at h <;> cases h
  · rintro ⟨hrun, hcount⟩
    exact (ofLexeme_pointed hrun).2 hcount

theorem lexemeTail_doubled (h : c = '&' ∨ c = '|') :
    lexemeTail c rest = if rest.head? = some c then [c] else [] := by
  cases rest with
  | nil => obtain rfl | rfl := h <;> rfl
  | cons d rest =>
      by_cases hd : d = c
      · subst hd
        obtain rfl | rfl := h <;> rfl
      · obtain rfl | rfl := h <;> simp [lexemeTail, isNameStart, hd]

theorem lone_iff : ofLexeme c (lexemeTail c rest) = .error .lone ↔
    (c = '&' ∨ c = '|') ∧ rest.head? ≠ some c := by
  constructor
  · intro h
    have hc : c = '&' ∨ c = '|' := by
      unfold ofLexeme at h
      split at h
      · cases eq_twoPoints_of_ofNumber h
      · split at h
        · cases h
        · unfold ofSymbol at h
          split at h <;> cases h
          · next heq => exact .inl (List.cons.inj heq).1
          · next heq => exact .inr (List.cons.inj heq).1
    refine ⟨hc, fun hhead => ?_⟩
    rw [lexemeTail_doubled hc, if_pos hhead] at h
    obtain rfl | rfl := hc <;> cases h
  · rintro ⟨hc, hhead⟩
    rw [lexemeTail_doubled hc, if_neg hhead]
    obtain rfl | rfl := hc <;> rfl

/-- A character that starts a symbol is not unknown, whatever follows it. -/
theorem ofSymbol_ne_unknown {tail : List Char} {kind : Kind} (h : ofSymbol (c :: tail) = .ok kind) :
    ofSymbol (c :: lexemeTail c rest) ≠ .error .unknown := by
  unfold ofSymbol at h
  split at h <;> cases h
  all_goals
    next heq =>
      obtain ⟨rfl, -⟩ := List.cons.inj heq
      unfold lexemeTail
      rw [if_neg (by decide), if_neg (by decide)]
      split <;> simp_all [ofSymbol]

theorem head?_ne_of_unknown (h : ofLexeme c (lexemeTail c rest) = .error .unknown)
    {lexeme : List Char} {kind : Kind} (hl : Lexeme lexeme kind) : lexeme.head? ≠ some c := by
  cases hl.lexes with
  | @intro first tail _ _ _ hkind =>
      intro hfirst
      obtain rfl : first = c := Option.some.inj hfirst
      unfold ofLexeme at h hkind
      split at h
      · cases eq_twoPoints_of_ofNumber h
      · split at h
        · cases h
        · next hdigit hname =>
          rw [if_neg hdigit, if_neg hname] at hkind
          exact ofSymbol_ne_unknown hkind h

theorem line_toError (fault : Fault) (c : Char) (tail : List Char) (position line : Nat) :
    (fault.toError c tail position line).line = line := by
  cases fault <;> rfl

theorem position_toError {fault : Fault} {tail : List Char} {position line p : Nat}
    (h : p ∈ (fault.toError c tail position line).position?) : p = position := by
  cases fault with
  | unknown | lone => exact (Option.some.inj h).symm
  | twoPoints => cases h

theorem blames_toError {fault : Fault} (hc : ¬ isSeparator c)
    (h : ofLexeme c (lexemeTail c rest) = .error fault) (position line : Nat) :
    (fault.toError c (lexemeTail c rest) position line).Blames (c :: rest) := by
  cases fault with
  | unknown =>
      refine ⟨rfl, fun lexeme kind hl => head?_ne_of_unknown h hl, ?_, ?_, ?_⟩
      · intro hgap
        exact hc (isGap_iff.1 hgap c List.mem_cons_self)
      · rintro rfl
        exact head?_ne_of_unknown h (.symbol .and rfl) rfl
      · rintro rfl
        exact head?_ne_of_unknown h (.symbol .or rfl) rfl
  | lone =>
      obtain ⟨hc, hhead⟩ := lone_iff.1 h
      exact ⟨rfl, hc, hhead⟩
  | twoPoints =>
      obtain ⟨hrun, hcount⟩ := twoPoints_iff.1 h
      simp only [Fault.toError, LexError.Blames, String.toList_ofList]
      refine ⟨List.cons_prefix_cons.2 ⟨rfl, lexemeTail_isPrefix _ _⟩, hrun, ?_, hcount⟩
      intro part hpart hp
      exact (isPrefix_of_isPointedRun hp hpart).length_le

/-- What an error says of a text is a fault there. -/
theorem exists_of_blames {e : LexError} (h : e.Blames rest) :
    ∃ c tail fault, rest = c :: tail ∧ ¬ isSeparator c ∧
      ofLexeme c (lexemeTail c tail) = .error fault ∧
      ∀ position, (∀ p ∈ e.position?, p = position) →
        e = fault.toError c (lexemeTail c tail) position e.line := by
  cases e with
  | invalidCharacter c position line =>
      obtain ⟨hhead, hlexeme, hgap, hand, hor⟩ := h
      obtain ⟨tail, rfl⟩ := List.head?_eq_some_iff.1 hhead
      refine ⟨c, tail, .unknown, rfl, ?_, ?_, ?_⟩
      · intro hsep
        exact hgap (isGap_iff.2 (List.forall_mem_singleton.2 hsep))
      · cases hfault : ofLexeme c (lexemeTail c tail) with
        | ok kind => exact absurd rfl (hlexeme _ kind (lexeme_of_ofLexeme hfault))
        | error fault =>
            cases fault with
            | unknown => rfl
            | lone => exact absurd (lone_iff.1 hfault).1 (by simp [hand, hor])
            | twoPoints =>
                have hc := isDigit_of_isPointedRun (twoPoints_iff.1 hfault).1
                have hdigit : Lexeme [c] _ :=
                  .integer (List.cons_ne_nil _ _) (List.forall_mem_singleton.2 hc)
                exact absurd rfl (hlexeme _ _ hdigit)
      · intro p hp
        rw [← hp position rfl]
        rfl
  | loneOperator c position line =>
      obtain ⟨hhead, hc, hnext⟩ := h
      obtain ⟨tail, rfl⟩ := List.head?_eq_some_iff.1 hhead
      refine ⟨c, tail, .lone, rfl, ?_, lone_iff.2 ⟨hc, hnext⟩, ?_⟩
      · obtain rfl | rfl := hc <;> decide
      · intro p hp
        rw [← hp position rfl]
        rfl
  | malformedNumber literal line =>
      obtain ⟨hfront, hrun, hlongest, hcount⟩ := h
      obtain ⟨c, tail, rfl, hc, hlexeme⟩ := exists_of_longest hrun hfront hlongest
      rw [hlexeme] at hrun hcount
      refine ⟨c, tail, .twoPoints, rfl, not_isSeparator_of_isDigit hc,
        twoPoints_iff.2 ⟨hrun, hcount⟩, fun _ _ => ?_⟩
      rw [Fault.toError, ← hlexeme, String.ofList_toList]
      rfl

end Faults

/-- Where an error of the lexer stands: behind what is cut into tokens, in front of the text that it is
about, and on the line and at the byte that it tells. -/
theorem place_of_tokenize_eq_error {source : String} {e : LexError} (h : tokenize source = .error e) :
    ∃ before rest : String, source = before ++ rest ∧ (∃ ts, tokenize before = .ok ts) ∧
      CutBefore rest.toList before.toList ∧ e.Blames rest.toList ∧
      e.line = 1 + before.toList.count '\n' ∧
      ∀ p ∈ e.position?, p = before.utf8ByteSize ∧ p = before.length := by
  obtain ⟨before, c, tail, fault, hsource, hcut, hc, hfault, rfl⟩ := exists_of_lex_eq_error h
  obtain ⟨before, rfl⟩ : ∃ s : String, s.toList = before := ⟨_, String.toList_ofList⟩
  obtain ⟨rest, hrest⟩ : ∃ s : String, s.toList = c :: tail := ⟨_, String.toList_ofList⟩
  rw [← hrest] at hsource hcut
  refine ⟨before, rest, ?_, hcut.exists_lex_eq_ok 0 1, hcut, ?_, line_toError .., ?_⟩
  · apply String.toList_inj.1
    rw [hsource, String.toList_append]
  · rw [hrest]
    exact blames_toError hc hfault _ _
  · intro p hp
    rw [hcut.utf8ByteSize_eq, ← String.length_toList, and_self, position_toError hp, Nat.zero_add]

/-- The lexer fails with an error exactly if the text can be cut into tokens up to a place where the
error is right, and it reports the place in bytes and lines. -/
theorem tokenize_eq_error_iff (source : String) (e : LexError) :
    tokenize source = .error e ↔
      ∃ before rest : String, source = before ++ rest ∧ rest ≠ "" ∧
        (∃ ts, tokenize before = .ok ts) ∧ CutBefore rest.toList before.toList ∧
        e.Blames rest.toList ∧ e.line = 1 + before.toList.count '\n' ∧
        ∀ p ∈ e.position?, p = before.utf8ByteSize ∧ p = before.length := by
  constructor
  · intro h
    obtain ⟨before, rest, hsource, hbefore, hcut, hblames, hplace⟩ := place_of_tokenize_eq_error h
    refine ⟨before, rest, hsource, ?_, hbefore, hcut, hblames, hplace⟩
    rintro rfl
    obtain ⟨_, _, _, hrest, -⟩ := exists_of_blames hblames
    cases hrest
  · rintro ⟨before, rest, rfl, -, -, hcut, hblames, hline, hposition⟩
    obtain ⟨c, tail, fault, hrest, hc, hfault, he⟩ := exists_of_blames hblames
    rw [hrest] at hcut
    rw [tokenize, String.toList_append, hrest, hcut.lex_eq_error hc hfault, ← hline, Nat.zero_add,
      ← he before.toList.length]
    intro p hp
    rw [(hposition p hp).2, String.length_toList]

end Token

end Abacus
