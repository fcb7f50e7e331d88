import ConfigGraph.Number.Binary64
import Mathlib.Tactic.NormNum
import Mathlib.Tactic.SplitIfs

/-!
# The parts of a float

The library tells what a float is by unpacking its bits.  `Binary64.parts` reads the same sign,
mantissa and exponent from them.
-/

namespace ConfigGraph.Binary64

open Float.Model (Format UnpackedFloat)
open Float.Model.UnpackedFloat (Sign)

/-! ## Fields of the bits -/

section

variable (bits : BitVec Format.binary64.numBits)

theorem toNat_unpackExponent :
    (UnpackedFloat.unpackExponent bits).toNat = bits.toNat / Nat.pow 2 52 % Nat.pow 2 11 := by
  simp only [UnpackedFloat.unpackExponent, BitVec.toNat_cast, BitVec.extractLsb_toNat,
    Nat.shiftRight_eq_div_pow]

theorem toNat_unpackMantissa :
    (UnpackedFloat.unpackMantissa bits).toNat = bits.toNat % Nat.pow 2 52 := by
  simp only [UnpackedFloat.unpackMantissa, BitVec.toNat_cast, BitVec.extractLsb_toNat,
    Nat.shiftRight_eq_div_pow, Nat.pow_zero, Nat.div_one]

theorem toNat_unpackSign :
    (UnpackedFloat.unpackSign bits).toNat = bits.toNat / Nat.pow 2 63 := by
  have bound : bits.toNat < 2 ^ 64 := bits.isLt
  delta UnpackedFloat.unpackSign
  simp only [BitVec.toNat_cast, BitVec.extractLsb_toNat, Nat.shiftRight_eq_div_pow]
  norm_num
  omega

end

/-! ## Parts -/

def isNegative : Sign → Bool
  | .negative => true
  | .positive => false

theorem isNegative_ofBitVec (bits : BitVec Format.binary64.numBits) :
    isNegative (.ofBitVec (UnpackedFloat.unpackSign bits)) =
      decide (1 ≤ bits.toNat / Nat.pow 2 63) := by
  rw [← toNat_unpackSign, Sign.ofBitVec]
  split_ifs with isZero
  · rw [isZero]
    rfl
  · have nonzero : (UnpackedFloat.unpackSign bits).toNat ≠ 0 := fun same =>
      isZero (BitVec.eq_of_toNat_eq same)
    exact (decide_eq_true (Nat.pos_of_ne_zero nonzero)).symm

/-- The parts of an unpacked float. -/
def Parts.ofUnpacked : UnpackedFloat → Parts
  | .notANumber => .nan
  | .infinity sign => .infinite (isNegative sign)
  | .zero sign => .finite (isNegative sign) 0 (-1074)
  | .finite sign mantissa exponent _ => .finite (isNegative sign) mantissa exponent

theorem toNat_append_mantissa (mantissa : BitVec 52) :
    (1#1 ++ mantissa).toNat = mantissa.toNat + Nat.pow 2 52 := by
  rw [BitVec.toNat_append, ← Nat.shiftLeft_add_eq_or_of_lt mantissa.isLt]
  simp [Nat.shiftLeft_eq, Nat.add_comm]

/-- The parts of a float by the fields of its bits. -/
def Parts.ofFields (negative : Bool) (exponent : BitVec 11) (mantissa : BitVec 52) : Parts :=
  if exponent = -1#11 then
    if mantissa = 0#52 then .infinite negative else .nan
  else if exponent = 0#11 then .finite negative mantissa.toNat (-1074)
  else .finite negative (mantissa.toNat + Nat.pow 2 52) (Int.ofNat exponent.toNat - 1075)

theorem ofUnpacked_unpack (bits : BitVec Format.binary64.numBits) :
    Parts.ofUnpacked (.unpack .binary64 bits) =
      .ofFields (isNegative (.ofBitVec (UnpackedFloat.unpackSign bits)))
        (UnpackedFloat.unpackExponent bits) (UnpackedFloat.unpackMantissa bits) := by
  unfold Parts.ofFields
  delta UnpackedFloat.unpack
  by_cases allOnes : UnpackedFloat.unpackExponent bits = -1#11
  · rw [if_pos allOnes, if_pos allOnes]
    by_cases noMantissa : UnpackedFloat.unpackMantissa bits = 0#52
    · rw [if_pos noMantissa, if_pos noMantissa]
      rfl
    · rw [if_neg noMantissa, if_neg noMantissa]
      rfl
  rw [if_neg allOnes, if_neg allOnes]
  by_cases noExponent : UnpackedFloat.unpackExponent bits = 0#11
  · rw [if_pos noExponent, if_pos noExponent]
    by_cases noMantissa : UnpackedFloat.unpackMantissa bits = 0#52
    · rw [dif_pos noMantissa, noMantissa]
      rfl
    · rw [dif_neg noMantissa, noExponent]
      rfl
  · rw [if_neg noExponent, if_neg noExponent, ← toNat_append_mantissa]
    rfl

theorem parts_eq_ofUnpacked (value : Float) : parts value = .ofUnpacked value.toModel.unpack := by
  obtain ⟨bits, isBits⟩ : ∃ bits : BitVec Format.binary64.numBits,
    bits = value.toModel.toBits.toBitVec := ⟨_, rfl⟩
  have sameNumber : value.toBits.toNat = bits.toNat := by
    rw [isBits]
    rfl
  have sameFloat : value.toModel.unpack = .unpack .binary64 bits := by
    rw [isBits]
    rfl
  have allOnes : UnpackedFloat.unpackExponent bits = -1#11 ↔
      bits.toNat / Nat.pow 2 52 % Nat.pow 2 11 = 2047 := by
    rw [← toNat_unpackExponent, ← BitVec.toNat_inj]
    rfl
  have noExponent : UnpackedFloat.unpackExponent bits = 0#11 ↔
      bits.toNat / Nat.pow 2 52 % Nat.pow 2 11 = 0 := by
    rw [← toNat_unpackExponent, ← BitVec.toNat_inj]
    rfl
  have noMantissa : UnpackedFloat.unpackMantissa bits = 0#52 ↔
      bits.toNat % Nat.pow 2 52 = 0 := by
    rw [← toNat_unpackMantissa, ← BitVec.toNat_inj]
    rfl
  rw [sameFloat, ofUnpacked_unpack]
  simp only [parts, Parts.ofFields, sameNumber, allOnes, noExponent, noMantissa,
    isNegative_ofBitVec, toNat_unpackExponent, toNat_unpackMantissa]

/-- A mantissa has all its bits, unless the exponent is the least one. -/
structure IsCanonical (mantissa : Nat) (exponent : Int) : Prop where
  lt : mantissa < 2 ^ 53
  least : -1074 ≤ exponent
  full : 2 ^ 52 ≤ mantissa ∨ exponent = -1074

theorem isCanonical_of_parts {value : Float} {negative : Bool} {mantissa : Nat} {exponent : Int}
    (isFinite : parts value = .finite negative mantissa exponent) :
    IsCanonical mantissa exponent := by
  have bound : value.toBits.toNat % 2 ^ 52 < 2 ^ 52 := Nat.mod_lt _ (by decide)
  unfold parts at isFinite
  dsimp only at isFinite
  split_ifs at isFinite with _ _ isDenormal
  · cases isFinite
    exact ⟨bound.trans (by decide), Int.le_refl _, .inr rfl⟩
  · cases isFinite
    simp only [Nat.pow_eq, Int.ofNat_eq_natCast] at isDenormal ⊢
    refine ⟨by omega, ?_, .inl (Nat.le_add_left _ _)⟩
    have positive := Nat.pos_of_ne_zero isDenormal
    omega

end ConfigGraph.Binary64
