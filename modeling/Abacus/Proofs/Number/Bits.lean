import Mathlib
import Abacus.Number.Text

/-!
Floating-point numbers and their bits. A number is given back by its bits, the bits of the finite
numbers without a sign are the patterns below that of infinity, and negation changes the highest bit.
-/
namespace Abacus.Number

open Float.Model Float.Model.UnpackedFloat

theorem ofBitVec_toBitVec (b : BitVec 1) : (Sign.ofBitVec b).toBitVec = b := by
  obtain rfl | rfl : b = 0 ∨ b = 1 := by bv_omega
  · rfl
  · rfl

section Fields

variable (b : BitVec Format.binary64.numBits)

/-- A pattern is made of its sign, its exponent and its fraction. -/
theorem packComponents_unpack :
    packComponents Format.binary64 (Sign.ofBitVec (unpackSign b)) (unpackExponent b)
      (unpackMantissa b) = b := by
  rw [packComponents, ofBitVec_toBitVec]
  apply BitVec.eq_of_getLsbD_eq
  intro i hi
  simp only [unpackSign, unpackExponent, unpackMantissa, BitVec.getLsbD_append, BitVec.getLsbD_cast,
    BitVec.getLsbD_extractLsb]
  change i < 64 at hi
  split
  · next h => simp [h]
  · split
    · next h h' =>
      have hindex : 52 + (i - 52) = i := by omega
      simp [hindex, h']
    · next h h' =>
      have hindex : 63 + (i - 52 - 11) = i := by omega
      have hlast : i - 52 - 11 < 1 := by omega
      simp [hindex, hlast]

theorem toNat_unpackExponent :
    (unpackExponent b).toNat = b.toNat / Magnitude.leadingOne % 2048 := by
  simp [unpackExponent, Magnitude.leadingOne, Nat.shiftRight_eq_div_pow]

end Fields

section Packing

variable (s : Sign) (e : BitVec Format.binary64.exponentBits)
  (m : BitVec Format.binary64.mantissaBitsWithoutImplicit)

theorem pack_small (h : 0 < m.toNat) :
    UnpackedFloat.pack Format.binary64 (.finite s m.toNat
      ((0#_ : BitVec Format.binary64.exponentBits).toNat -
        (Format.binary64.exponentBias + Format.binary64.mantissaBitsWithoutImplicit) + 1) h) =
      packComponents Format.binary64 s 0 m := by
  have hlog : m.toNat.log2 < 52 := (Nat.log2_lt (Nat.ne_of_gt h)).2 m.isLt
  have hbits : ¬ m.toNat.log2 + 1 = Format.binary64.mantissaBits := by
    change ¬ m.toNat.log2 + 1 = 53
    omega
  simp only [UnpackedFloat.pack, hbits, ↓reduceIte, BitVec.ofNat_toNat, BitVec.setWidth_eq]
  rfl

theorem pack_normal (he : e ≠ -1#_) (h : 0 < (1#1 ++ m).toNat) :
    UnpackedFloat.pack Format.binary64 (.finite s (1#1 ++ m).toNat
      (e.toNat - (Format.binary64.exponentBias + Format.binary64.mantissaBitsWithoutImplicit)) h) =
      packComponents Format.binary64 s e m := by
  have hm : m.toNat < 2 ^ 52 := m.isLt
  have hone : (1#1 ++ m).toNat = 2 ^ 52 + m.toNat := by
    rw [BitVec.toNat_append, ← Nat.shiftLeft_add_eq_or_of_lt m.isLt]
    rfl
  have hlog : (1#1 ++ m).toNat.log2 = 52 := by
    rw [Nat.log2_eq_iff (Nat.ne_of_gt h), hone]
    omega
  have hbits : (1#1 ++ m).toNat.log2 + 1 = Format.binary64.mantissaBits := by
    rw [hlog]
    rfl
  have hlarge : ¬ 2048 ≤ e.toNat + 1 := by
    intro hlarge
    apply he
    apply BitVec.eq_of_toNat_eq
    have hlt : e.toNat < 2048 := e.isLt
    change e.toNat = 2047
    omega
  unfold UnpackedFloat.pack
  have hbias : ((e.toNat : Int) - (Format.binary64.exponentBias +
      Format.binary64.mantissaBitsWithoutImplicit) + Format.binary64.exponentBias +
      Format.binary64.mantissaBitsWithoutImplicit).toNat = e.toNat := by omega
  simp only [hbias]
  rw [if_neg hlarge, if_pos hbits]
  congr 1
  · simp
  · rw [hone]
    apply BitVec.eq_of_toNat_eq
    change (2 ^ 52 + m.toNat) % 2 ^ 52 = m.toNat
    omega

end Packing

/-- Packing a number puts the parts of its pattern back where they were. -/
theorem pack_unpack {b : BitVec Format.binary64.numBits} (h : Format.binary64.Valid b) :
    UnpackedFloat.pack Format.binary64 (UnpackedFloat.unpack Format.binary64 b) = b := by
  have hparts := packComponents_unpack b
  simp only [UnpackedFloat.unpack]
  split
  · next hinf =>
    split
    · next hzero =>
      rw [hinf, hzero] at hparts
      exact hparts
    · next hzero => exact (h.eq_packedNaN hinf hzero).symm
  · next hfinite =>
    split
    · next hsmall =>
      rw [hsmall] at hparts ⊢
      split
      · next hzero =>
        rw [hzero] at hparts
        exact hparts
      · next hzero => exact (pack_small _ _ _).trans hparts
    · next hsmall => exact (pack_normal _ _ _ hfinite _).trans hparts

@[simp] theorem ofBits_toBits (x : Float) : Float.ofBits x.toBits = x := by
  obtain ⟨⟨bits, hvalid⟩⟩ := x
  have h : UInt64.ofBitVec (UnpackedFloat.pack Format.binary64
      (UnpackedFloat.unpack Format.binary64 bits.toBitVec)) = bits := by
    rw [pack_unpack hvalid]
  simp only [Float.ofBits, Float.toBits, Float.Model.ofBits, Float.Model.pack, h]

theorem isNaN_of_isFinite {x : Float} (h : x.isFinite) : x.isNaN = false := by
  change x.toModel.unpack.isFinite = true at h
  change x.toModel.unpack.isNaN = false
  cases hx : x.toModel.unpack with
  | notANumber =>
      rw [hx] at h
      cases h
  | infinity _ | zero _ | finite _ _ _ _ => rfl

theorem isFinite_unpack_iff (b : BitVec Format.binary64.numBits) :
    (UnpackedFloat.unpack Format.binary64 b).isFinite ↔ unpackExponent b ≠ -1#_ := by
  simp only [UnpackedFloat.unpack]
  split
  · next h =>
    simp only [h, ne_eq, not_true, iff_false]
    split <;> exact Bool.false_ne_true
  · next h =>
    simp only [h, ne_eq, not_false_eq_true, iff_true]
    split
    · split <;> rfl
    · rfl

/-- The infinities and the not-a-number are those with the largest exponent. -/
theorem isFinite_iff (x : Float) :
    x.isFinite ↔ x.toBits.toNat / Magnitude.leadingOne % 2048 ≠ 2047 := by
  have hfinite := isFinite_unpack_iff x.toBits.toBitVec
  rw [Ne, ← BitVec.toNat_inj, toNat_unpackExponent] at hfinite
  exact hfinite

/-- The finite numbers without a sign are those whose pattern lies below that of infinity. -/
theorem lt_infinity_iff (x : Float) :
    x.toBits.toNat < Magnitude.infinity ↔ x.isFinite ∧ x.toBits.toNat < signBit := by
  rw [isFinite_iff]
  simp only [Magnitude.infinity, Magnitude.leadingOne, signBit, Nat.pow_eq]
  omega

section Negation

/-- Negating a finite number changes its sign and nothing else. -/
theorem pack_neg_unpack {b : BitVec Format.binary64.numBits} (h : unpackExponent b ≠ -1#_) :
    UnpackedFloat.pack Format.binary64 (UnpackedFloat.unpack Format.binary64 b).neg =
      packComponents Format.binary64 (-Sign.ofBitVec (unpackSign b)) (unpackExponent b)
        (unpackMantissa b) := by
  simp only [UnpackedFloat.unpack]
  rw [if_neg h]
  split
  · next hsmall =>
    rw [hsmall]
    split
    · next hzero =>
      rw [hzero]
      rfl
    · exact pack_small _ _ _
  · exact pack_normal _ _ _ h _

theorem toNat_packComponents (s : Sign) (e : BitVec Format.binary64.exponentBits)
    (m : BitVec Format.binary64.mantissaBitsWithoutImplicit) :
    (packComponents Format.binary64 s e m).toNat =
      s.toBitVec.toNat * signBit + e.toNat * Magnitude.leadingOne + m.toNat := by
  have hinner : (s.toBitVec ++ e).toNat = s.toBitVec.toNat * 2 ^ 11 + e.toNat := by
    rw [BitVec.toNat_append, ← Nat.shiftLeft_add_eq_or_of_lt e.isLt, Nat.shiftLeft_eq]
  have houter : (packComponents Format.binary64 s e m).toNat =
      (s.toBitVec ++ e).toNat * 2 ^ 52 + m.toNat := by
    rw [packComponents, BitVec.toNat_append, ← Nat.shiftLeft_add_eq_or_of_lt m.isLt, Nat.shiftLeft_eq]
  rw [houter, hinner]
  simp only [signBit, Magnitude.leadingOne, Nat.pow_eq]
  omega

/-- The sign of a number is its highest bit. -/
theorem toNat_pack_neg {b : BitVec Format.binary64.numBits} (h : unpackExponent b ≠ -1#_)
    (hsign : b.toNat < signBit) :
    (UnpackedFloat.pack Format.binary64 (UnpackedFloat.unpack Format.binary64 b).neg).toNat =
      signBit + b.toNat := by
  have hparts := congrArg BitVec.toNat (packComponents_unpack b)
  rw [toNat_packComponents] at hparts
  rw [pack_neg_unpack h, toNat_packComponents]
  cases hs : Sign.ofBitVec (unpackSign b) with
  | negative =>
      rw [hs] at hparts
      change 1 * signBit + _ + _ = _ at hparts
      omega
  | positive =>
      rw [hs] at hparts
      change 0 * signBit + _ + _ = _ at hparts
      change 1 * signBit + _ + _ = _
      omega

end Negation

theorem toBits_neg {x : Float} (h : x.toBits.toNat < Magnitude.infinity) :
    (-x).toBits.toNat = signBit + x.toBits.toNat := by
  obtain ⟨hfinite, hsign⟩ := (lt_infinity_iff x).1 h
  exact toNat_pack_neg ((isFinite_unpack_iff _).1 hfinite) hsign

theorem eq_of_toBits {x y : Float} (h : x.toBits.toNat = y.toBits.toNat) : x = y := by
  rw [← ofBits_toBits x, UInt64.toNat_inj.1 h, ofBits_toBits]

end Abacus.Number
