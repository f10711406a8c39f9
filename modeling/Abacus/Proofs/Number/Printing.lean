import Mathlib
import Abacus.Proofs.Number.Literals

/-!
What numbers are printed as. A finite number is the number without its sign or the negation of it,
and so is its text. A decimal needs no exponent, and a whole number of at most 52 bits is printed with
all its digits: dropping some would leave a whole number of at most 53 bits, which reads as itself.
-/
namespace Abacus

namespace Magnitude

/-- A whole number with few enough bits is a number of units of some pattern. -/
theorem exists_units_eq {total unit m : Nat} (hunit : unit = Nat.pow 2 total) (htotal : 52 ≤ total)
    (hm : m < 2 * leadingOne) : ∃ p, p < (total + 2) * leadingOne ∧ units p = m * unit := by
  subst hunit
  obtain rfl | hpos := Nat.eq_zero_or_pos m
  · exact ⟨0, by simp [leadingOne], by simp [units, significand, leadingOne]⟩
  · -- The number is shifted until its significand is full.
    have hne := Nat.ne_of_gt hpos
    have hlog : m.log2 < 53 := (Nat.log2_lt hne).2 hm
    obtain ⟨shift, hshift⟩ := Nat.exists_eq_add_of_le (Nat.lt_succ_iff.1 hlog)
    have hlow : leadingOne ≤ m * Nat.pow 2 shift := by
      calc leadingOne = 2 ^ m.log2 * 2 ^ shift := by rw [← Nat.pow_add, ← hshift]; rfl
        _ ≤ m * Nat.pow 2 shift := Nat.mul_le_mul_right _ (Nat.log2_self_le hne)
    have hhigh : m * Nat.pow 2 shift < 2 * leadingOne := by
      calc m * Nat.pow 2 shift
          < 2 ^ (m.log2 + 1) * 2 ^ shift :=
            Nat.mul_lt_mul_of_pos_right Nat.lt_log2_self (Nat.two_pow_pos _)
        _ = 2 * leadingOne := by rw [← Nat.pow_add, Nat.add_right_comm, ← hshift]; rfl
    refine ⟨_, ?_, (units_add_mul (total - shift) hlow hhigh).trans ?_⟩
    · have hle := Nat.mul_le_mul_right leadingOne (Nat.sub_le total shift)
      rw [Nat.add_mul]
      omega
    · have hpow : Nat.pow 2 shift * Nat.pow 2 (total - shift) = Nat.pow 2 total := by
        rw [Nat.pow_eq, Nat.pow_eq, ← Nat.pow_add, Nat.add_sub_cancel' (by omega)]
        rfl
      rw [Nat.mul_assoc, hpow]

theorem units_nearest {m : Nat} (hm : m < 2 * leadingOne) :
    units (nearest m 1) = m * unitsInOne := by
  obtain ⟨p, hlt, hp⟩ := exists_units_eq unitsInOne_eq (by decide) hm
  have hnearest : nearest m 1 = p :=
    nearest_of_units Nat.one_pos (Nat.lt_trans hlt (by decide)) (by rw [hp, Nat.one_mul])
  rw [hnearest, hp]

end Magnitude

namespace Decimal

/-- Digits, with or without a point and more digits behind it. There is no exponent. -/
inductive IsPlain : List Char → Prop where
  | whole {digits : List Char} : digits ≠ [] → (∀ c ∈ digits, c.isDigit) → IsPlain digits
  | fraction {digits places : List Char} : digits ≠ [] → (∀ c ∈ digits, c.isDigit) →
      places ≠ [] → (∀ c ∈ places, c.isDigit) → IsPlain (digits ++ '.' :: places)

theorem isPlain_text (d : Decimal) : IsPlain d.text.toList := by
  have hdigits : ∀ n, ∀ c ∈ Nat.toDigits 10 n, c.isDigit :=
    fun n _ hc => Nat.isDigit_of_mem_toDigits (by decide) (by decide) hc
  by_cases hplaces : d.places = 0
  · rw [toList_text_whole hplaces]
    exact .whole Nat.toDigits_ne_nil (hdigits _)
  · have hpos := Nat.pos_of_ne_zero hplaces
    have hlength := length_fractionDigits d.places
      (Nat.mod_lt d.coefficient (Nat.pow_pos (by decide))) hpos
    rw [toList_text_fraction hplaces]
    refine .fraction Nat.toDigits_ne_nil (hdigits _) (List.ne_nil_of_length_pos ?_)
      fun _ hc => isDigit_of_mem_fractionDigits _ hc
    exact Nat.lt_of_lt_of_eq hpos hlength.symm

theorem text_whole (n : Nat) : Decimal.text ⟨n, 0⟩ = toString n := by
  apply String.toList_inj.1
  rw [toList_text_whole rfl]
  simp

end Decimal

namespace Number

variable {x : Float}

/-- The pattern of a number without its sign. -/
def magnitude (x : Float) : Nat :=
  x.toBits.toNat % signBit

/-- The sign that a number is printed with; the negative zero has one. -/
def signText (x : Float) : String :=
  if x.toBits.toNat < signBit then "" else "-"

theorem magnitude_eq (h : x.toBits.toNat < signBit) : magnitude x = x.toBits.toNat :=
  Nat.mod_eq_of_lt h

theorem magnitude_add (h : signBit ≤ x.toBits.toNat) : magnitude x + signBit = x.toBits.toNat := by
  have hbits := x.toBits.toNat_lt
  rw [magnitude]
  simp only [signBit, Nat.pow_eq] at h ⊢
  omega

theorem magnitude_lt (h : x.isFinite) : magnitude x < Magnitude.infinity := by
  have hfinite := (isFinite_iff x).1 h
  simp only [magnitude, Magnitude.infinity, Magnitude.leadingOne, signBit, Nat.pow_eq] at hfinite ⊢
  omega

/-- A number with a sign is the negation of one without. -/
theorem exists_neg_eq (h : x.isFinite) (hsign : signBit ≤ x.toBits.toNat) :
    ∃ y : Float, y.toBits.toNat = magnitude x ∧ -y = x := by
  have hy := toBits_ofBits (magnitude_lt h)
  refine ⟨_, hy, eq_of_toBits ?_⟩
  rw [toBits_neg (lt_of_eq_of_lt hy (magnitude_lt h)), hy, Nat.add_comm, magnitude_add hsign]

theorem text_eq_append (h : x.isFinite) :
    text x = signText x ++ (shortest (magnitude x)).text := by
  have hlt := magnitude_lt h
  rw [signText]
  split
  · next hsign =>
    rw [magnitude_eq hsign] at hlt ⊢
    rw [text_eq hlt, String.empty_append]
  · next hsign =>
    have hsub : x.toBits.toNat - signBit = magnitude x := by
      rw [← magnitude_add (Nat.not_lt.1 hsign), Nat.add_sub_cancel]
    unfold text magnitudeText
    dsimp only
    rw [isNaN_of_isFinite h, if_neg Bool.false_ne_true, if_neg hsign, hsub, if_pos hlt]

/-- A whole number is printed with all its digits. -/
theorem shortest_of_units {pattern n : Nat} (h : pattern < Magnitude.infinity)
    (hn : n < Magnitude.leadingOne) (hwhole : Magnitude.units pattern = n * Magnitude.unitsInOne) :
    shortest pattern = ⟨n, 0⟩ := by
  obtain ⟨m, hle, hm⟩ := exists_shortest_eq h (hwhole.trans (Nat.mul_comm _ _))
  have hpattern : Magnitude.nearest m 1 = pattern := by
    have hread := pattern_shortest h
    rwa [hm] at hread
  have hunits : m * Magnitude.unitsInOne = n * Magnitude.unitsInOne := by
    rw [← Magnitude.units_nearest (by omega : m < 2 * Magnitude.leadingOne), hpattern, hwhole]
  rw [hm, Nat.eq_of_mul_eq_mul_right Magnitude.unitsInOne_pos hunits]

end Number

end Abacus
