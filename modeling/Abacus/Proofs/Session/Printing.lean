import Mathlib
import Abacus.Proofs.Number.Printing
import Abacus.Proofs.Session.Joining
import Abacus.Proofs.Token.RoundTrip

/-!
Printed numbers are programs. The text of a finite number is a literal or, if it has a sign, a minus
and a literal, and running it gives the number back and does nothing else.
-/
namespace Abacus

open Token

variable {x y : Float} {kind : Kind}

namespace Token

/-- The kinds of the literals of a number. -/
def Kind.IsLiteral (y : Float) (kind : Kind) : Prop :=
  kind = .integer y ∨ kind = .float y

theorem exists_lexes_text (h : y.toBits.toNat < Magnitude.infinity) :
    ∃ kind, Kind.IsLiteral y kind ∧ Lexes (Number.text y).toList kind := by
  obtain hlexes | hlexes := lexes_text h
  · exact ⟨_, .inl rfl, hlexes⟩
  · exact ⟨_, .inr rfl, hlexes⟩

theorem lex_minus (position line : Nat) (cs : List Char) :
    lex position line ('-' :: cs) = (lex (position + 1) line cs).map (⟨.minus, line⟩ :: ·) := by
  have htail : lexemeTail '-' cs = [] := by
    unfold lexemeTail
    simp [isNameStart]
  rw [lex_lexeme _ _ (by decide), htail]
  rfl

end Token

section Programs

variable (h : Kind.IsLiteral y kind)

include h

theorem parse_literal :
    parse [⟨kind, 1⟩, ⟨.eof, 1⟩] = .ok ⟨1, [.expression (.number 1 y)]⟩ := by
  obtain rfl | rfl := h <;> with_unfolding_all rfl

theorem parse_minus_literal :
    parse [⟨.minus, 1⟩, ⟨kind, 1⟩, ⟨.eof, 1⟩] =
      .ok ⟨1, [.expression (.negate 1 (.number 1 y))]⟩ := by
  obtain rfl | rfl := h <;> with_unfolding_all rfl

end Programs

/-- The text of a finite number spells an expression for that number. -/
theorem exists_ofSource_text (h : x.isFinite) :
    ∃ (ts : List Token) (e : Expr), tokenize (Number.text x) = .ok ts ∧
      parse ts = .ok ⟨1, [.expression e]⟩ ∧ e.eval = pure (.number x) := by
  by_cases hsign : x.toBits.toNat < Number.signBit
  · obtain ⟨kind, hkind, hlexes⟩ := exists_lexes_text ((Number.lt_infinity_iff x).2 ⟨h, hsign⟩)
    exact ⟨_, _, hlexes.lex_eq 0 1, parse_literal hkind, rfl⟩
  · obtain ⟨y, hy, rfl⟩ := Number.exists_neg_eq h (Nat.not_lt.1 hsign)
    have hlt : y.toBits.toNat < Magnitude.infinity := lt_of_eq_of_lt hy (Number.magnitude_lt h)
    obtain ⟨kind, hkind, hlexes⟩ := exists_lexes_text hlt
    refine ⟨[⟨.minus, 1⟩, ⟨kind, 1⟩, ⟨.eof, 1⟩], _, ?_, parse_minus_literal hkind, rfl⟩
    have htext : (Number.text (-y)).toList = '-' :: (Number.text y).toList := by
      rw [Number.text_eq_append h, Number.signText, if_neg hsign, ← hy, Number.text_eq hlt]
      simp
    rw [tokenize, htext, lex_minus, hlexes.lex_eq]
    rfl

/-- Running what a number is printed as gives the number, in any session, and changes nothing. -/
theorem Session.run_text (s : Session) (h : x.isFinite) :
    (s.run (Value.number x).text).result = .ok (some (.number x)) ∧
      (s.run (Value.number x).text).world.context = s.context ∧
      (s.run (Value.number x).text).world.output = "" := by
  obtain ⟨ts, e, hts, hp, he⟩ := exists_ofSource_text h
  obtain ⟨w, hcontext, houtput, hrun⟩ := s.exists_run_eq (Block.ofSource_eq_ok hts hp)
  have heval : Statement.evalFrom none [.expression e] w = .ok (some (.number x)) w := by
    simp only [Statement.evalFrom, Statement.eval, he]
    rfl
  rw [heval] at hrun
  change s.run (Value.number x).text = _ at hrun
  rw [hrun]
  exact ⟨rfl, hcontext, houtput⟩

/-- A printed number reads back: a finite number is printed as its sign and a text of digits with at
most one point, which are the digits of the number if it is whole and below `10 ^ 15`, and this text
is a program with the number as its value. -/
theorem Value.runSource_text (h : x.isFinite) :
    (∃ plain : String, (number x).text = Number.signText x ++ plain ∧
      Decimal.IsPlain plain.toList ∧
      ∀ n < 10 ^ 15, Magnitude.units (Number.magnitude x) = n * Magnitude.unitsInOne →
        plain = toString n) ∧
      (runSource (number x).text).result = .ok (some (number x)) := by
  refine ⟨⟨_, Number.text_eq_append h, Decimal.isPlain_text _, ?_⟩, (Session.run_text _ h).1⟩
  intro n hn hwhole
  have hlt : n < Magnitude.leadingOne := Nat.lt_trans hn (by decide)
  rw [Number.shortest_of_units (Number.magnitude_lt h) hlt hwhole, Decimal.text_whole]

/-- The negative zero keeps its sign, and the number next to it all of its 324 places. -/
theorem Value.runSource_text_signed :
    let zero := Float.ofBits 0x8000000000000000
    let next := Float.ofBits 0x8000000000000001
    (zero.isFinite ∧ (number zero).text = "-0" ∧
        (runSource "-0").result = .ok (some (number zero))) ∧
      next.isFinite ∧ (Number.shortest (Number.magnitude next)).places = 324 ∧
        (runSource (number next).text).result = .ok (some (number next)) := by
  intro zero next
  have hzero : zero.isFinite := by decide +kernel
  have hnext : next.isFinite := by decide +kernel
  have hplaces : (Number.shortest (Number.magnitude next)).places = 324 := by decide +kernel
  obtain ⟨⟨plain, htext, -, hwhole⟩, hrun⟩ := runSource_text hzero
  have hplain : plain = toString 0 := hwhole 0 (by decide) (by decide +kernel)
  have hsign : Number.signText zero = "-" := by decide +kernel
  rw [hplain, hsign] at htext
  rw [htext] at hrun
  exact ⟨⟨hzero, htext, hrun⟩, hnext, hplaces, (runSource_text hnext).2⟩

end Abacus
