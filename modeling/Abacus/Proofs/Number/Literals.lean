import Mathlib
import Abacus.Proofs.Number.ReadBack

/-!
The numbers that literals spell. A decimal is read as a finite number without a sign or, if it is too
large, as infinity. A whole decimal that is read as a finite number is read as a whole one: either all
its digits fit, or the last digit that is kept stands for more than one.
-/
namespace Abacus

namespace Magnitude

section Patterns

variable {r : Nat} (shift : Nat)

/-- A pattern put together from a full significand and a shift. -/
theorem add_mul_div (hlow : leadingOne ≤ r) (hhigh : r < 2 * leadingOne) :
    (r + shift * leadingOne) / leadingOne = shift + 1 := by
  rw [Nat.add_mul_div_right _ _ (by decide),
    Nat.div_eq_of_lt_le (by rwa [Nat.one_mul]) hhigh, Nat.add_comm]

theorem units_add_mul (hlow : leadingOne ≤ r) (hhigh : r < 2 * leadingOne) :
    units (r + shift * leadingOne) = r * Nat.pow 2 shift := by
  have hmod : (r + shift * leadingOne) % leadingOne = r - leadingOne := by
    rw [Nat.add_mul_mod_self_right, Nat.mod_eq_sub_mod hlow, Nat.mod_eq_of_lt (by omega)]
  have hlarge : ¬ r + shift * leadingOne < leadingOne := by omega
  rw [units, significand, scale, if_neg hlarge, add_mul_div shift hlow hhigh, hmod,
    Nat.add_sub_cancel, Nat.add_sub_cancel' hlow]

theorem le_scale_add_mul (hlow : leadingOne ≤ r) : shift ≤ scale (r + shift * leadingOne) := by
  have hdiv : 1 ≤ r / leadingOne := (Nat.one_le_div_iff (by decide)).2 hlow
  rw [scale, Nat.add_mul_div_right _ _ (by decide)]
  omega

end Patterns

theorem div_le_roundHalfEven (num den : Nat) : num / den ≤ roundHalfEven num den := by
  unfold roundHalfEven
  split
  · exact Nat.le_refl _
  · split
    · exact Nat.le_succ _
    · exact Nat.le_add_right _ _

section Significands

variable {m : Nat}

theorem leadingOne_le_div (h : 52 ≤ m.log2) : leadingOne ≤ m / Nat.pow 2 (m.log2 - 52) := by
  have hm : m ≠ 0 := by
    rintro rfl
    exact absurd h (by decide)
  have hpow : 2 ^ 52 * 2 ^ (m.log2 - 52) = 2 ^ m.log2 := by
    rw [← Nat.pow_add, Nat.add_sub_cancel' h]
  apply (Nat.le_div_iff_mul_le (Nat.two_pow_pos _)).2
  exact Nat.le_trans (Nat.le_of_eq hpow) (Nat.log2_self_le hm)

theorem div_lt_two_mul_leadingOne (h : 52 ≤ m.log2) :
    m / Nat.pow 2 (m.log2 - 52) < 2 * leadingOne := by
  have hpow : 2 * 2 ^ 52 * 2 ^ (m.log2 - 52) = 2 ^ (m.log2 + 1) := by
    rw [Nat.mul_assoc, ← Nat.pow_add, Nat.add_sub_cancel' h, Nat.pow_succ']
  apply (Nat.div_lt_iff_lt_mul (Nat.two_pow_pos _)).2
  exact Nat.lt_of_lt_of_eq Nat.lt_log2_self hpow.symm

/-- Rounding to a full significand does not break up the units that a number is made of. -/
theorem dvd_units_roundHalfEven {total unit : Nat} (hunit : unit = Nat.pow 2 total)
    (htotal : 52 ≤ total) (hpos : 0 < m) (hm : unit ∣ m) :
    unit ∣ units (roundHalfEven m (Nat.pow 2 (m.log2 - 52)) + (m.log2 - 52) * leadingOne) := by
  subst hunit
  have hlog : total ≤ m.log2 := (Nat.le_log2 (Nat.ne_of_gt hpos)).2 (Nat.le_of_dvd hpos hm)
  have hlow := leadingOne_le_div (Nat.le_trans htotal hlog)
  have hhigh := div_lt_two_mul_leadingOne (Nat.le_trans htotal hlog)
  generalize m.log2 - 52 = shift at hlow hhigh ⊢
  have hstep : 0 < Nat.pow 2 shift := Nat.two_pow_pos _
  rcases Nat.le_total total shift with hle | hle
  · -- The unit of the significand is a multiple of the given one.
    have hscale := le_scale_add_mul shift (Nat.le_trans hlow (div_le_roundHalfEven m _))
    exact Nat.dvd_mul_left_of_dvd (Nat.pow_dvd_pow 2 (Nat.le_trans hle hscale)) _
  · -- The unit of the significand divides the given one, so nothing is rounded.
    obtain ⟨k, rfl⟩ : Nat.pow 2 shift ∣ m := Nat.dvd_trans (Nat.pow_dvd_pow 2 hle) hm
    rw [Nat.mul_div_cancel_left k hstep] at hlow hhigh
    rw [roundHalfEven_mul hstep, units_add_mul shift hlow hhigh, Nat.mul_comm]
    exact hm

end Significands

/-- A whole number that is not too large is rounded to a whole number. -/
theorem unitsInOne_dvd_units_nearest {n : Nat} (h : nearest n 1 < infinity) :
    unitsInOne ∣ units (nearest n 1) := by
  rcases Nat.eq_zero_or_pos n with rfl | hn
  · have hzero : nearest 0 1 = 0 :=
      nearest_of_units Nat.one_pos (by decide) (Nat.zero_mul unitsInOne)
    rw [hzero]
    exact Nat.dvd_zero _
  · have hdvd := dvd_units_roundHalfEven unitsInOne_eq (by decide)
      (Nat.mul_pos hn unitsInOne_pos) (Nat.dvd_mul_left _ n)
    unfold nearest at h ⊢
    dsimp only at h ⊢
    rw [Nat.div_one, Nat.one_mul] at h ⊢
    rw [Nat.min_eq_left (by omega)]
    exact hdvd

end Magnitude

namespace Number

open Float.Model Float.Model.UnpackedFloat

/-- The patterns of finite numbers are the bits of these numbers. -/
theorem toBits_ofBits {pattern : Nat} (h : pattern < Magnitude.infinity) :
    (Float.ofBits (UInt64.ofNat pattern)).toBits.toNat = pattern := by
  have hbits : (UInt64.ofNat pattern).toBitVec.toNat = pattern := by
    apply UInt64.toNat_ofNat_of_lt
    exact Nat.lt_trans h (by decide)
  have hvalid : Format.binary64.Valid (UInt64.ofNat pattern).toBitVec := by
    refine ⟨fun hinf => ?_⟩
    have hexponent := toNat_unpackExponent (UInt64.ofNat pattern).toBitVec
    rw [hinf, hbits] at hexponent
    change 2047 = _ at hexponent
    have hdiv : pattern / Magnitude.leadingOne < 2047 :=
      (Nat.div_lt_iff_lt_mul (by decide)).2 h
    rw [Nat.mod_eq_of_lt (Nat.lt_succ_of_lt hdiv)] at hexponent
    exact absurd hexponent.symm (Nat.ne_of_lt hdiv)
  calc (Float.ofBits (UInt64.ofNat pattern)).toBits.toNat
      = (UnpackedFloat.pack Format.binary64
          (UnpackedFloat.unpack Format.binary64 (UInt64.ofNat pattern).toBitVec)).toNat := rfl
    _ = pattern := by rw [pack_unpack hvalid, hbits]

/-- What is too large for a finite number. -/
def infinite : Float :=
  Float.ofBits (UInt64.ofNat Magnitude.infinity)

theorem not_isFinite_infinite : ¬ infinite.isFinite := by
  decide +kernel

theorem text_infinite : text infinite = "inf" := by
  decide +kernel

end Number

namespace Decimal

variable {d : Decimal}

theorem toFloat_eq_infinite (h : ¬ d.pattern < Magnitude.infinity) :
    d.toFloat = Number.infinite := by
  have hle : d.pattern ≤ Magnitude.infinity := Nat.min_le_right _ _
  rw [toFloat, Nat.le_antisymm hle (Nat.not_lt.1 h), Number.infinite]

/-- A decimal is read as a finite number unless it is too large. -/
theorem isFinite_toFloat_iff : d.toFloat.isFinite ↔ d.pattern < Magnitude.infinity := by
  constructor
  · intro hfinite
    by_contra h
    rw [toFloat_eq_infinite h] at hfinite
    exact Number.not_isFinite_infinite hfinite
  · intro h
    rw [← Number.toBits_ofBits h] at h
    exact ((Number.lt_infinity_iff _).1 h).1

theorem toBits_toFloat (h : d.toFloat.isFinite) : d.toFloat.toBits.toNat = d.pattern :=
  Number.toBits_ofBits (isFinite_toFloat_iff.1 h)

theorem toBits_toFloat_lt (h : d.toFloat.isFinite) : d.toFloat.toBits.toNat < Number.signBit := by
  have hlt := isFinite_toFloat_iff.1 h
  rw [← toBits_toFloat h] at hlt
  exact ((Number.lt_infinity_iff _).1 hlt).2

/-- A decimal without places that is read as a finite number is read as a whole one. -/
theorem unitsInOne_dvd_toFloat (hplaces : d.places = 0) (h : d.toFloat.isFinite) :
    Magnitude.unitsInOne ∣ Magnitude.units d.toFloat.toBits.toNat := by
  have hlt := isFinite_toFloat_iff.1 h
  rw [toBits_toFloat h]
  rw [pattern, hplaces] at hlt ⊢
  exact Magnitude.unitsInOne_dvd_units_nearest hlt

end Decimal

end Abacus
