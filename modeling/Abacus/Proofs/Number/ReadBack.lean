import Mathlib
import Abacus.Proofs.Number.Bits

/-!
A number can be read back from its text. A finite number is a whole number of units, so a decimal
that is equal to it rounds to it; dropping digits never changes what a decimal rounds to, and zeros
at the end of a fraction make no difference. The text of a decimal spells it, and that of a whole
number has no point.
-/
namespace Abacus

namespace Magnitude

theorem unitsInOne_eq : unitsInOne = Nat.pow 2 1074 := by
  unfold unitsInOne
  rfl

theorem unitsInOne_pos : 0 < unitsInOne := by
  decide +kernel

section Patterns

variable (pattern : Nat)

theorem significand_add_scale_mul : significand pattern + scale pattern * leadingOne = pattern := by
  unfold significand scale
  split
  · next h =>
    rw [Nat.div_eq_of_lt h, Nat.zero_sub, Nat.zero_mul, Nat.add_zero]
  · next h =>
    have hpos : 1 ≤ pattern / leadingOne := (Nat.one_le_div_iff (by decide)).2 (Nat.not_lt.1 h)
    have hdiv := Nat.div_add_mod' pattern leadingOne
    rw [Nat.sub_mul, Nat.one_mul]
    have hle := Nat.le_mul_of_pos_left leadingOne hpos
    omega

theorem significand_lt : significand pattern < 2 * leadingOne := by
  have hmod : pattern % leadingOne < leadingOne := Nat.mod_lt _ (by decide)
  unfold significand
  split <;> omega

theorem leadingOne_le_significand (h : 0 < scale pattern) : leadingOne ≤ significand pattern := by
  unfold significand
  split
  · next hlt =>
    unfold scale at h
    rw [Nat.div_eq_of_lt hlt] at h
    omega
  · exact Nat.le_add_right _ _

/-- The units of a number say how far its significand is shifted. -/
theorem log2_units_sub : (units pattern).log2 - 52 = scale pattern := by
  have hlt := significand_lt pattern
  by_cases hscale : scale pattern = 0
  · have hunits : units pattern = significand pattern := by
      rw [units, hscale]
      exact Nat.mul_one _
    rw [hunits, hscale]
    by_cases hzero : significand pattern = 0
    · rw [hzero]
      rfl
    · have hlog : (significand pattern).log2 < 53 := (Nat.log2_lt hzero).2 hlt
      omega
  · have hle := leadingOne_le_significand pattern (Nat.pos_of_ne_zero hscale)
    have hpow : 0 < 2 ^ scale pattern := Nat.two_pow_pos _
    have hlow : 2 ^ (52 + scale pattern) ≤ units pattern := by
      rw [Nat.pow_add]
      exact Nat.mul_le_mul_right _ hle
    have hhigh : units pattern < 2 ^ (52 + scale pattern + 1) := by
      rw [Nat.add_right_comm, Nat.pow_add]
      exact Nat.mul_lt_mul_of_pos_right hlt hpow
    have hne : units pattern ≠ 0 :=
      Nat.ne_of_gt (Nat.lt_of_lt_of_le (Nat.two_pow_pos _) hlow)
    have hlog : (units pattern).log2 = 52 + scale pattern :=
      (Nat.log2_eq_iff hne).2 ⟨hlow, hhigh⟩
    omega

end Patterns

theorem roundHalfEven_mul {den : Nat} (h : 0 < den) (n : Nat) : roundHalfEven (den * n) den = n := by
  unfold roundHalfEven
  rw [Nat.mul_mod_right, Nat.mul_div_cancel_left n h, Nat.mul_zero, if_pos h]

theorem nearest_of_units {num den pattern : Nat} (hden : 0 < den) (hp : pattern < infinity)
    (h : num * unitsInOne = den * units pattern) : nearest num den = pattern := by
  have hexact : den * units pattern = den * Nat.pow 2 (scale pattern) * significand pattern := by
    rw [units, Nat.mul_comm (significand pattern), Nat.mul_assoc]
  have hpos : 0 < den * Nat.pow 2 (scale pattern) := Nat.mul_pos hden (Nat.pow_pos (by decide))
  unfold nearest
  dsimp only
  rw [h, Nat.mul_div_cancel_left _ hden, log2_units_sub, hexact, roundHalfEven_mul hpos,
    significand_add_scale_mul]
  exact Nat.min_eq_left (Nat.le_of_lt hp)

section Ratios

variable (num den : Nat) {k : Nat}

theorem roundHalfEven_mul_mul (hk : 0 < k) :
    roundHalfEven (num * k) (den * k) = roundHalfEven num den := by
  have hlow : 2 * (num * k % (den * k)) < den * k ↔ 2 * (num % den) < den := by
    rw [Nat.mul_mod_mul_right, ← Nat.mul_assoc, Nat.mul_lt_mul_right hk]
  have hhigh : den * k < 2 * (num * k % (den * k)) ↔ den < 2 * (num % den) := by
    rw [Nat.mul_mod_mul_right, ← Nat.mul_assoc, Nat.mul_lt_mul_right hk]
  simp only [roundHalfEven, hlow, hhigh, Nat.mul_div_mul_right _ _ hk]

/-- Rounding depends on the ratio alone. -/
theorem nearest_mul_mul (hk : 0 < k) : nearest (num * k) (den * k) = nearest num den := by
  have hdiv : num * k * unitsInOne / (den * k) = num * unitsInOne / den := by
    rw [Nat.mul_right_comm, Nat.mul_div_mul_right _ _ hk]
  unfold nearest
  dsimp only
  rw [hdiv, Nat.mul_right_comm num, Nat.mul_right_comm den, roundHalfEven_mul_mul _ _ hk]

end Ratios

end Magnitude

namespace Decimal

theorem pattern_trimmed (coefficient places : Nat) :
    (trimmed coefficient places).pattern = Decimal.pattern ⟨coefficient, places⟩ := by
  induction places generalizing coefficient with
  | zero => rfl
  | succ places ih =>
      unfold trimmed
      split
      · next h =>
        have hten : coefficient / 10 * 10 = coefficient := Nat.div_mul_cancel (Nat.dvd_of_mod_eq_zero h)
        rw [ih, pattern, pattern]
        change _ = Magnitude.nearest coefficient (Nat.pow 10 places * 10)
        rw [← Magnitude.nearest_mul_mul _ _ (by decide : 0 < 10), hten]
      · rfl

theorem pattern_trim (d : Decimal) : d.trim.pattern = d.pattern :=
  pattern_trimmed d.coefficient d.places

/-- A fraction of zeros is trimmed away. -/
theorem trimmed_mul (places whole : Nat) :
    trimmed (Nat.pow 10 places * whole) places = ⟨whole, 0⟩ := by
  induction places with
  | zero => rw [trimmed, Nat.pow_eq, Nat.pow_zero, Nat.one_mul]
  | succ places ih =>
      have hten : Nat.pow 10 (places + 1) * whole = 10 * (Nat.pow 10 places * whole) := by
        change Nat.pow 10 places * 10 * whole = _
        rw [Nat.mul_comm _ 10, Nat.mul_assoc]
      unfold trimmed
      rw [hten, Nat.mul_mod_right, if_pos rfl, Nat.mul_div_cancel_left _ (by decide)]
      exact ih

section Text

variable (coefficient places : Nat)

theorem ofDigits_toDigits : ofDigits (Nat.toDigits 10 coefficient) [] = ⟨coefficient, 0⟩ := by
  simp [ofDigits]

theorem length_fractionDigits {fraction : Nat} (h : fraction < Nat.pow 10 places)
    (hpos : 0 < places) : (fractionDigits fraction places).length = places := by
  have hle := (Nat.length_toDigits_le_iff (by decide) hpos).2 h
  simp only [fractionDigits, List.length_append, List.length_replicate]
  omega

theorem isDigit_of_mem_fractionDigits {c : Char} {fraction : Nat}
    (h : c ∈ fractionDigits fraction places) : c.isDigit := by
  obtain h | h := List.mem_append.1 h
  · rw [List.eq_of_mem_replicate h]
    rfl
  · exact Nat.isDigit_of_mem_toDigits (by decide) (by decide) h

theorem ofDigits_fractionDigits (hpos : 0 < places) :
    ofDigits (Nat.toDigits 10 (coefficient / Nat.pow 10 places))
      (fractionDigits (coefficient % Nat.pow 10 places) places) = ⟨coefficient, places⟩ := by
  have hlt : coefficient % Nat.pow 10 places < Nat.pow 10 places :=
    Nat.mod_lt _ (Nat.pow_pos (by decide))
  have hlength := length_fractionDigits places hlt hpos
  have hvalue : Nat.ofDigitChars 10 (fractionDigits (coefficient % Nat.pow 10 places) places) 0 =
      coefficient % Nat.pow 10 places := by
    simp [fractionDigits, Nat.ofDigitChars_append]
  rw [ofDigits, Nat.ofDigitChars_append, Nat.ofDigitChars_ten_toDigits,
    Nat.ofDigitChars_eq_ofDigitChars_zero, hlength, hvalue]
  congr 1
  exact Nat.div_add_mod coefficient (10 ^ places)

theorem pattern_ofDigits_zero :
    (ofDigits (Nat.toDigits 10 coefficient) ['0']).pattern = Decimal.pattern ⟨coefficient, 0⟩ := by
  have hten : ofDigits (Nat.toDigits 10 coefficient) ['0'] = ⟨coefficient * 10, 1⟩ := by
    simp [ofDigits, Nat.ofDigitChars_append, Nat.ofDigitChars_cons, Nat.mul_comm]
  rw [hten]
  exact Magnitude.nearest_mul_mul coefficient 1 (by decide : 0 < 10)

end Text

theorem toList_text_whole {d : Decimal} (h : d.places = 0) :
    d.text.toList = Nat.toDigits 10 d.coefficient := by
  simp [text, h]

theorem toList_text_fraction {d : Decimal} (h : d.places ≠ 0) :
    d.text.toList = Nat.toDigits 10 (d.coefficient / Nat.pow 10 d.places) ++
      '.' :: fractionDigits (d.coefficient % Nat.pow 10 d.places) d.places := by
  simp [text, h]

theorem toFloat_eq_of_pattern {d : Decimal} {x : Float} (h : d.pattern = x.toBits.toNat) :
    d.toFloat = x := by
  rw [toFloat, h, UInt64.ofNat_toNat, Number.ofBits_toBits]

end Decimal

namespace Number

/-- Units of `2 ^ -total` are counted by a decimal with as many places as twos are missing. -/
theorem mul_five_pow_mul {total unit : Nat} (hunit : unit = Nat.pow 2 total)
    (significand scale : Nat) :
    significand * Nat.pow 2 (scale - total) * Nat.pow 5 (total - scale) * unit =
      Nat.pow 10 (total - scale) * (significand * Nat.pow 2 scale) := by
  have hshift : 2 ^ (scale - total) * 2 ^ total = 2 ^ (total - scale) * 2 ^ scale := by
    rw [← pow_add, ← pow_add]
    congr 1
    omega
  have hten : 10 ^ (total - scale) = 2 ^ (total - scale) * 5 ^ (total - scale) :=
    Nat.mul_pow 2 5 _
  simp only [hunit, Nat.pow_eq]
  calc significand * 2 ^ (scale - total) * 5 ^ (total - scale) * 2 ^ total
      = significand * 5 ^ (total - scale) * (2 ^ (scale - total) * 2 ^ total) := by ac_rfl
    _ = significand * 5 ^ (total - scale) * (2 ^ (total - scale) * 2 ^ scale) := by rw [hshift]
    _ = 2 ^ (total - scale) * 5 ^ (total - scale) * (significand * 2 ^ scale) := by ac_rfl
    _ = 10 ^ (total - scale) * (significand * 2 ^ scale) := by rw [← hten]

/-- A number and its decimal are equal. -/
theorem exact_coefficient_mul (pattern : Nat) :
    (exact pattern).coefficient * Magnitude.unitsInOne =
      Nat.pow 10 (exact pattern).places * Magnitude.units pattern :=
  mul_five_pow_mul Magnitude.unitsInOne_eq _ _

theorem pattern_exact {pattern : Nat} (h : pattern < Magnitude.infinity) :
    (exact pattern).pattern = pattern :=
  Magnitude.nearest_of_units (Nat.pow_pos (by decide)) h (exact_coefficient_mul pattern)

theorem of_dropDigits {pattern k : Nat} {d shorter : Decimal}
    (h : dropDigits pattern d k = some shorter) :
    shorter.pattern = pattern ∧ shorter.places = d.places ∧
      Nat.pow 10 k ∣ shorter.coefficient := by
  have hbelow : Nat.pow 10 k ∣ d.coefficient / Nat.pow 10 k * Nat.pow 10 k := Nat.dvd_mul_left _ _
  have habove : Nat.pow 10 k ∣ d.coefficient / Nat.pow 10 k * Nat.pow 10 k + Nat.pow 10 k :=
    Nat.dvd_add hbelow (Nat.dvd_refl _)
  simp only [dropDigits] at h
  split at h
  · next hpattern =>
    split at h
    · next hnear =>
      cases h
      exact ⟨hnear.2, rfl, habove⟩
    · cases h
      exact ⟨hpattern, rfl, hbelow⟩
  · split at h
    · next hpattern =>
      cases h
      exact ⟨hpattern, rfl, habove⟩
    · cases h

theorem dropDigits_ne_none {pattern k : Nat} {d : Decimal} (h : d.pattern = pattern)
    (hk : Nat.pow 10 k ∣ d.coefficient) : dropDigits pattern d k ≠ none := by
  have hbelow : d.coefficient / Nat.pow 10 k * Nat.pow 10 k = d.coefficient :=
    Nat.div_mul_cancel hk
  simp only [dropDigits, hbelow]
  rw [if_pos h]
  split <;> nofun

theorem coefficient_le_of_dropDigits {pattern k : Nat} {d shorter : Decimal}
    (h : dropDigits pattern d k = some shorter) :
    shorter.coefficient ≤ d.coefficient + Nat.pow 10 k := by
  have hbelow : d.coefficient / Nat.pow 10 k * Nat.pow 10 k ≤ d.coefficient := Nat.div_mul_le_self _ _
  simp only [dropDigits] at h
  split at h
  · split at h <;> cases h
    · exact Nat.add_le_add_right hbelow _
    · exact Nat.le_add_right_of_le hbelow
  · split at h <;> cases h
    exact Nat.add_le_add_right hbelow _

/-- What the search ends with is the decimal itself or what is left after one of the drops. -/
theorem shortestFrom_cases (drop : Nat → Option Decimal) (d : Decimal) (k : Nat) :
    shortestFrom drop d k = d ∨ ∃ j, 0 < j ∧ j ≤ k ∧ drop j = some (shortestFrom drop d k) := by
  induction k with
  | zero => exact .inl rfl
  | succ k ih =>
      unfold shortestFrom
      split
      · next hdrop => exact .inr ⟨k + 1, Nat.succ_pos k, Nat.le_refl _, hdrop⟩
      · obtain hd | ⟨j, hj, hle, hdrop⟩ := ih
        · exact .inl hd
        · exact .inr ⟨j, hj, Nat.le_succ_of_le hle, hdrop⟩

/-- The search does not end before it has dropped as many digits as can be dropped. -/
theorem exists_of_shortestFrom {drop : Nat → Option Decimal} {d : Decimal} {j k : Nat}
    (hj : drop j ≠ none) (hpos : 0 < j) (hle : j ≤ k) :
    ∃ i, j ≤ i ∧ drop i = some (shortestFrom drop d k) := by
  induction k with
  | zero => omega
  | succ k ih =>
      unfold shortestFrom
      split
      · next hdrop => exact ⟨k + 1, hle, hdrop⟩
      · next hdrop =>
        apply ih
        by_contra hlt
        obtain rfl : j = k + 1 := by omega
        exact hj hdrop

section Shortest

variable {pattern : Nat} {d : Decimal}

theorem places_shortestFrom (k : Nat) :
    (shortestFrom (dropDigits pattern d) d k).places = d.places := by
  obtain hd | ⟨_, _, _, hdrop⟩ := shortestFrom_cases (dropDigits pattern d) d k
  · rw [hd]
  · exact (of_dropDigits hdrop).2.1

/-- The search drops at least the zeros behind the point of a whole number. -/
theorem dvd_shortestFrom (h : d.pattern = pattern) (hdvd : Nat.pow 10 d.places ∣ d.coefficient) :
    Nat.pow 10 d.places ∣ (shortestFrom (dropDigits pattern d) d
      ((Nat.toDigits 10 d.coefficient).length - 1)).coefficient := by
  by_cases hplaces : d.places = 0
  · rw [hplaces]
    exact Nat.one_dvd _
  · have hpos : 0 < d.places := Nat.pos_of_ne_zero hplaces
    by_cases hlength : (Nat.toDigits 10 d.coefficient).length ≤ d.places
    · have hzero : d.coefficient = 0 :=
        Nat.eq_zero_of_dvd_of_lt hdvd ((Nat.length_toDigits_le_iff (by decide) hpos).1 hlength)
      rw [hzero, Nat.toDigits_zero]
      exact hdvd
    · have hle : d.places ≤ (Nat.toDigits 10 d.coefficient).length - 1 := by omega
      obtain ⟨i, hi, hlast⟩ := exists_of_shortestFrom (dropDigits_ne_none h hdvd) hpos hle
      exact Nat.dvd_trans (Nat.pow_dvd_pow 10 hi) (of_dropDigits hlast).2.2

theorem pattern_shortest (h : pattern < Magnitude.infinity) :
    (shortest pattern).pattern = pattern := by
  unfold shortest
  rw [Decimal.pattern_trim]
  obtain hd | ⟨_, _, _, hdrop⟩ := shortestFrom_cases (dropDigits pattern (exact pattern))
    (exact pattern) ((Nat.toDigits 10 (exact pattern).coefficient).length - 1)
  · rw [hd]
    exact pattern_exact h
  · exact (of_dropDigits hdrop).1

/-- Rounding up at most doubles a number, as its first digit is kept. -/
theorem coefficient_shortestFrom_le :
    (shortestFrom (dropDigits pattern d) d
      ((Nat.toDigits 10 d.coefficient).length - 1)).coefficient ≤ 2 * d.coefficient := by
  obtain hd | ⟨j, hj, hle, hdrop⟩ := shortestFrom_cases (dropDigits pattern d) d
    ((Nat.toDigits 10 d.coefficient).length - 1)
  · rw [hd]
    omega
  · have hcoefficient := coefficient_le_of_dropDigits hdrop
    have hlength : ¬ (Nat.toDigits 10 d.coefficient).length ≤ j := by omega
    rw [Nat.length_toDigits_le_iff (by decide) hj, Nat.not_lt] at hlength
    change 10 ^ j ≤ _ at hlength
    change _ ≤ d.coefficient + 10 ^ j at hcoefficient
    omega

/-- A whole number has no fraction in its shortest form. -/
theorem exists_shortest_eq (h : pattern < Magnitude.infinity) {n : Nat}
    (hwhole : Magnitude.units pattern = Magnitude.unitsInOne * n) :
    ∃ m ≤ 2 * n, shortest pattern = ⟨m, 0⟩ := by
  have hcoefficient : (exact pattern).coefficient = Nat.pow 10 (exact pattern).places * n := by
    have hmul := exact_coefficient_mul pattern
    rw [hwhole, ← Nat.mul_assoc, Nat.mul_right_comm] at hmul
    exact Nat.eq_of_mul_eq_mul_right Magnitude.unitsInOne_pos hmul
  obtain ⟨m, hm⟩ := dvd_shortestFrom (pattern_exact h) ⟨n, hcoefficient⟩
  have hpow : 0 < Nat.pow 10 (exact pattern).places := Nat.pow_pos (by decide)
  refine ⟨m, ?_, ?_⟩
  · have hle := Nat.le_trans (Nat.le_of_eq hm.symm) coefficient_shortestFrom_le
    rw [hcoefficient, Nat.mul_left_comm] at hle
    exact Nat.le_of_mul_le_mul_left hle hpow
  · unfold shortest Decimal.trim
    dsimp only
    rw [places_shortestFrom, hm, Decimal.trimmed_mul]

theorem places_shortest (h : pattern < Magnitude.infinity)
    (hwhole : Magnitude.unitsInOne ∣ Magnitude.units pattern) : (shortest pattern).places = 0 := by
  obtain ⟨n, hn⟩ := hwhole
  obtain ⟨m, _, hm⟩ := exists_shortest_eq h hn
  rw [hm]

end Shortest

theorem text_eq {x : Float} (h : x.toBits.toNat < Magnitude.infinity) :
    text x = (shortest x.toBits.toNat).text := by
  obtain ⟨hfinite, hsign⟩ := (lt_infinity_iff x).1 h
  unfold text magnitudeText
  dsimp only
  rw [isNaN_of_isFinite hfinite, if_neg Bool.false_ne_true, if_pos hsign, if_pos h]

end Number

end Abacus
