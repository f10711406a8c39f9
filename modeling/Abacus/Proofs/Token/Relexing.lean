import Abacus.Proofs.Number.Literals
import Abacus.Proofs.Token.LongestMatch

/-!
Which tokens of a text can be read back from their own texts. All but one number can: a literal is
read as a finite number, which has a text that spells it, or it is too large and is read as infinity.
The text of infinity is a word, and no word is read as a number.
-/
namespace Abacus.Token

/-- The number that a literal stands for. -/
def Kind.number? : Kind → Option Float
  | integer x | float x => some x
  | _ => none

theorem Piece.exists_lexeme {pieces : List Piece} (h : WellCut pieces) {before : List Char}
    {t : Token} (ht : t ∈ tokens before pieces) (hk : t.kind ≠ .eof) :
    ∃ lexeme, Lexeme lexeme t.kind := by
  induction pieces generalizing before with
  | nil =>
      obtain rfl := List.mem_singleton.1 ht
      exact absurd rfl hk
  | cons p pieces ih =>
      obtain ⟨hlexeme, _, _, hpieces⟩ := h
      obtain rfl | ht := List.mem_cons.1 ht
      · exact ⟨p.lexeme, hlexeme⟩
      · exact ih hpieces ht

theorem exists_lexeme_of_tokenize {source : String} {ts : List Token}
    (h : tokenize source = .ok ts) {t : Token} (ht : t ∈ ts) (hk : t.kind ≠ .eof) :
    ∃ lexeme, Lexeme lexeme t.kind := by
  have h : lex 0 (1 + [].count '\n') source.toList = .ok ts := h
  obtain ⟨gap, pieces, _, _, hpieces, rfl⟩ := exists_pieces_of_lex h
  exact Piece.exists_lexeme hpieces ht hk

section Kinds

variable {lexeme : List Char} {kind : Kind}

theorem Kind.number?_of_isSymbol (h : kind.isSymbol) : kind.number? = none := by
  cases kind with
  | integer x | float x => cases h
  | _ => rfl

/-- A token has a text, if its number is finite. -/
theorem Lexeme.writable (h : Lexeme lexeme kind) (hfinite : ∀ x ∈ kind.number?, x.isFinite) :
    kind.Writable := by
  cases h with
  | symbol kind hk => cases kind <;> trivial
  | keyword word => trivial
  | name hname => exact hname
  | integer =>
      have hx := hfinite _ rfl
      exact ⟨hx, Decimal.toBits_toFloat_lt hx, Decimal.unitsInOne_dvd_toFloat rfl hx⟩
  | float =>
      have hx := hfinite _ rfl
      exact ⟨hx, Decimal.toBits_toFloat_lt hx⟩

theorem Lexeme.eq_infinite (h : Lexeme lexeme kind) {x : Float} (hx : x ∈ kind.number?)
    (hfinite : ¬ x.isFinite) : x = Number.infinite := by
  cases h with
  | symbol kind hk =>
      rw [Kind.number?_of_isSymbol hk] at hx
      cases hx
  | keyword word | name hname => cases hx
  | integer | float =>
      obtain rfl := Option.some.inj hx
      exact Decimal.toFloat_eq_infinite fun hlt => hfinite (Decimal.isFinite_toFloat_iff.2 hlt)

end Kinds

/-- What starts like a word is read as a word. -/
theorem number?_of_isNameStart {position line : Nat} {first : Char} {tail : List Char} {t : Token}
    {ts : List Token} (hfirst : isNameStart first)
    (h : lex position line (first :: tail) = .ok (t :: ts)) : t.kind.number? = none := by
  obtain ⟨kind, tokens, hkind, _, heq⟩ := lex_lexeme_eq_ok (not_isSeparator_of_isNameStart hfirst) h
  obtain ⟨rfl, rfl⟩ := List.cons.inj heq
  rw [ofLexeme, isDigit_of_isNameStart hfirst, if_neg Bool.false_ne_true, if_pos hfirst] at hkind
  obtain rfl := Except.ok.inj hkind
  unfold ofName
  split
  · rfl
  · split <;> rfl

theorem exists_text_of_infinite {kind : Kind} (h : Number.infinite ∈ kind.number?) :
    ∃ tail, kind.text.toList = 'i' :: tail := by
  cases kind with
  | integer x =>
      obtain rfl := Option.some.inj h
      exact ⟨['n', 'f'], by rw [Kind.text, Number.text_infinite]; rfl⟩
  | float x =>
      obtain rfl := Option.some.inj h
      exact ⟨['n', 'f', '.', '0'], by rw [Kind.text, Kind.floatText, Number.text_infinite]; rfl⟩
  | _ => cases h

/-- The literal of a power of ten. -/
def powerOfTen (n : Nat) : String :=
  String.ofList ('1' :: List.replicate n '0')

theorem tokenize_powerOfTen (n : Nat) :
    tokenize (powerOfTen n) = .ok [⟨.integer (Decimal.toFloat ⟨10 ^ n, 0⟩), 1⟩, ⟨.eof, 1⟩] := by
  have hdigits : ∀ c ∈ List.replicate n '0', c.isDigit := by
    intro c hc
    rw [List.eq_of_mem_replicate hc]
    rfl
  have hlexes : Lexes ('1' :: List.replicate n '0') _ := lexes_integer rfl hdigits
  have hvalue : Decimal.ofDigits ('1' :: List.replicate n '0') [] = ⟨10 ^ n, 0⟩ := by
    rw [Decimal.ofDigits, List.append_nil, Nat.ofDigitChars_cons,
      Nat.ofDigitChars_eq_ofDigitChars_zero]
    simp
  rw [hvalue] at hlexes
  rw [tokenize, powerOfTen, String.toList_ofList]
  exact hlexes.lex_eq 0 1

/-- A token of a text is read back from its own text, unless it is a literal that is too large for a
finite number. -/
theorem tokenize_text_iff {source : String} {ts : List Token} (h : tokenize source = .ok ts)
    {t : Token} (ht : t ∈ ts) (hk : t.kind ≠ .eof) :
    tokenize t.kind.text = .ok [⟨t.kind, 1⟩, ⟨.eof, 1⟩] ↔ ∀ x ∈ t.kind.number?, x.isFinite := by
  obtain ⟨lexeme, hlexeme⟩ := exists_lexeme_of_tokenize h ht hk
  constructor
  · intro hback x hx
    by_contra hfinite
    obtain rfl := hlexeme.eq_infinite hx hfinite
    obtain ⟨tail, htail⟩ := exists_text_of_infinite hx
    rw [tokenize, htail] at hback
    have hnone := number?_of_isNameStart (by decide) hback
    rw [hnone] at hx
    cases hx
  · intro hfinite
    exact (hlexeme.writable hfinite).lexes.lex_eq 0 1

theorem tokenize_text_iff_large :
    let x := Float.ofBits 0x7FE1CCF385EBC8A0
    tokenize (powerOfTen 308) = .ok [⟨.integer x, 1⟩, ⟨.eof, 1⟩] ∧ x.isFinite ∧
      (tokenize (Kind.integer x).text = .ok [⟨.integer x, 1⟩, ⟨.eof, 1⟩] ↔
        ∀ y ∈ (Kind.integer x).number?, y.isFinite) := by
  intro x
  have hvalue : Decimal.toFloat ⟨10 ^ 308, 0⟩ = x := by
    decide +kernel
  have h := tokenize_powerOfTen 308
  rw [hvalue] at h
  have hfinite : x.isFinite := by
    decide +kernel
  exact ⟨h, hfinite, tokenize_text_iff h List.mem_cons_self nofun⟩

/-- The literal of ten to the power of 309 is read as infinity, and the text of infinity is read as a
name. -/
theorem tokenize_text_infinite :
    let t : Token := ⟨.integer Number.infinite, 1⟩
    tokenize (powerOfTen 309) = .ok [t, ⟨.eof, 1⟩] ∧
      tokenize t.kind.text = .ok [⟨.identifier "inf", 1⟩, ⟨.eof, 1⟩] ∧
      tokenize t.kind.text ≠ .ok [⟨t.kind, 1⟩, ⟨.eof, 1⟩] := by
  intro t
  have hlarge : ¬ (Decimal.mk (10 ^ 309) 0).pattern < Magnitude.infinity := by
    decide +kernel
  have h := tokenize_powerOfTen 309
  rw [Decimal.toFloat_eq_infinite hlarge] at h
  have hname : Lexes "inf".toList (.identifier "inf") := .intro (by decide) rfl rfl
  have hback : tokenize t.kind.text = .ok [⟨.identifier "inf", 1⟩, ⟨.eof, 1⟩] := by
    rw [show t.kind.text = "inf" from Number.text_infinite]
    exact hname.lex_eq 0 1
  refine ⟨h, hback, ?_⟩
  rw [hback]
  nofun

end Abacus.Token
