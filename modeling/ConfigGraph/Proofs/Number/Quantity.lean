import ConfigGraph.Number.Basic
import ConfigGraph.Proofs.Number.Binary64
import Mathlib.Algebra.Order.Field.Rat
import Mathlib.Algebra.Order.Field.Power
import Mathlib.Order.Compare
import Mathlib.Tactic.Linarith
import Mathlib.Tactic.Positivity

/-!
# Numbers as quantities

Two numbers are the same if they stand for one quantity: a rational number or an infinity.  A float
that is no number stands for none.
-/

namespace ConfigGraph

open Float.Model (UnpackedFloat)

/-- What a number stands for. -/
inductive Quantity where
  | infinite (negative : Bool)
  | finite (value : ℚ)

namespace Binary64

def signed (negative : Bool) (mantissa : Nat) : Int :=
  if negative then -Int.ofNat mantissa else Int.ofNat mantissa

def Parts.quantity? : Parts → Option Quantity
  | .nan => none
  | .infinite negative => some (.infinite negative)
  | .finite negative mantissa exponent =>
      some (.finite (signed negative mantissa * 2 ^ exponent))

/-! ## One form for each quantity -/

theorem exponent_le_of_eq {mantissa other : Nat} {exponent otherExponent : Int}
    (canonical : IsCanonical mantissa exponent) (otherCanonical : IsCanonical other otherExponent)
    (same : (mantissa : ℚ) * 2 ^ exponent = other * 2 ^ otherExponent) :
    exponent ≤ otherExponent := by
  by_contra isLess
  -- The mantissa at the larger exponent has all its bits, so at the smaller one it has too many.
  obtain ⟨steps, isSum⟩ : ∃ steps : Nat, exponent = otherExponent + (steps + 1 : Nat) :=
    ⟨(exponent - otherExponent - 1).toNat, by omega⟩
  have isFull : 2 ^ 52 ≤ mantissa := by
    have aboveLeast := otherCanonical.least
    refine canonical.full.resolve_right ?_
    omega
  have positive : (0 : ℚ) < 2 ^ otherExponent := by positivity
  have inInts : mantissa * 2 ^ (steps + 1) = other := by
    rw [isSum, zpow_add₀ two_ne_zero, zpow_natCast, mul_left_comm, mul_comm (other : ℚ)] at same
    exact_mod_cast mul_left_cancel₀ positive.ne' same
  have isSmall := otherCanonical.lt
  have isLarge : 2 ^ 52 * 2 ≤ mantissa * 2 ^ (steps + 1) :=
    Nat.mul_le_mul isFull (Nat.le_self_pow (Nat.succ_ne_zero steps) 2)
  omega

theorem eq_of_scaled_eq {mantissa other : Nat} {exponent otherExponent : Int}
    (canonical : IsCanonical mantissa exponent) (otherCanonical : IsCanonical other otherExponent)
    (same : (mantissa : ℚ) * 2 ^ exponent = other * 2 ^ otherExponent) :
    mantissa = other ∧ exponent = otherExponent := by
  obtain rfl : exponent = otherExponent :=
    le_antisymm (exponent_le_of_eq canonical otherCanonical same)
      (exponent_le_of_eq otherCanonical canonical same.symm)
  have positive : (2 : ℚ) ^ exponent ≠ 0 := by positivity
  exact ⟨by exact_mod_cast mul_right_cancel₀ positive same, rfl⟩

theorem abs_signed_mul (negative : Bool) (mantissa : Nat) (exponent : Int) :
    |(signed negative mantissa : ℚ) * 2 ^ exponent| = mantissa * 2 ^ exponent := by
  cases negative <;> simp [signed]

/-- Floats that are not zero stand for one number only if their parts are the same. -/
theorem signed_mul_inj {negative otherNegative : Bool} {mantissa other : Nat}
    {exponent otherExponent : Int} (canonical : IsCanonical mantissa exponent)
    (otherCanonical : IsCanonical other otherExponent) (positive : 0 < mantissa) :
    (signed negative mantissa : ℚ) * 2 ^ exponent = signed otherNegative other * 2 ^ otherExponent ↔
      negative = otherNegative ∧ mantissa = other ∧ exponent = otherExponent := by
  constructor
  · intro same
    have sameSize := congrArg abs same
    rw [abs_signed_mul, abs_signed_mul] at sameSize
    obtain ⟨rfl, rfl⟩ := eq_of_scaled_eq canonical otherCanonical sameSize
    have scale : (2 : ℚ) ^ exponent ≠ 0 := by positivity
    have sameSigned : signed negative mantissa = signed otherNegative mantissa := by
      exact_mod_cast mul_right_cancel₀ scale same
    refine ⟨?_, rfl, rfl⟩
    cases negative <;> cases otherNegative <;> simp [signed] at sameSigned ⊢ <;> omega
  · rintro ⟨rfl, rfl, rfl⟩
    rfl

theorem signed_mul_ne_zero {negative : Bool} {mantissa : Nat} {exponent : Int}
    (positive : 0 < mantissa) : (signed negative mantissa : ℚ) * 2 ^ exponent ≠ 0 := by
  have size : (0 : ℚ) < |(signed negative mantissa : ℚ) * 2 ^ exponent| := by
    rw [abs_signed_mul]
    positivity
  exact abs_pos.mp size

/-! ## Comparing floats -/

/-- Both parts stand for one quantity. -/
def Parts.Same (left right : Parts) : Prop :=
  ∃ quantity, left.quantity? = some quantity ∧ right.quantity? = some quantity

theorem quantity?_zero (sign : UnpackedFloat.Sign) :
    (Parts.ofUnpacked (.zero sign)).quantity? = some (.finite 0) := by
  change some (Quantity.finite (signed (isNegative sign) 0 * 2 ^ (-1074 : Int))) = _
  cases isNegative sign <;> simp [signed]

theorem quantity?_infinity (sign : UnpackedFloat.Sign) :
    (Parts.ofUnpacked (.infinity sign)).quantity? = some (.infinite (isNegative sign)) := rfl

theorem quantity?_finite {sign : UnpackedFloat.Sign} {mantissa : Nat} {exponent : Int}
    (positive : 0 < mantissa) :
    (Parts.ofUnpacked (.finite sign mantissa exponent positive)).quantity? =
      some (.finite (signed (isNegative sign) mantissa * 2 ^ exponent)) := rfl

theorem not_same_of_nan (parts : Parts) :
    ¬(Parts.ofUnpacked .notANumber).Same parts ∧ ¬parts.Same (.ofUnpacked .notANumber) :=
  ⟨nofun, nofun⟩

theorem same_iff {left right : Parts} {quantity other : Quantity}
    (isQuantity : left.quantity? = some quantity) (isOther : right.quantity? = some other) :
    left.Same right ↔ quantity = other := by
  simp only [Parts.Same, isQuantity, isOther, Option.some.injEq, exists_eq_left']
  exact eq_comm

theorem compare_sign_iff (sign other : UnpackedFloat.Sign) :
    compare sign other = .eq ↔ isNegative sign = isNegative other := by
  cases sign <;> cases other <;> decide

theorem compare_parts_iff (exponent otherExponent : Int) (mantissa otherMantissa : Nat) :
    (compare exponent otherExponent).then (compare mantissa otherMantissa) = .eq ↔
      mantissa = otherMantissa ∧ exponent = otherExponent := by
  rw [Ordering.then_eq_eq, compare_eq_iff_eq, compare_eq_iff_eq, and_comm]

theorem compare_finite_iff {sign other : UnpackedFloat.Sign} {mantissa otherMantissa : Nat}
    {exponent otherExponent : Int} (positive : 0 < mantissa) (otherPositive : 0 < otherMantissa) :
    (UnpackedFloat.finite sign mantissa exponent positive).compare
        (.finite other otherMantissa otherExponent otherPositive) = some .eq ↔
      isNegative sign = isNegative other ∧ mantissa = otherMantissa ∧ exponent = otherExponent := by
  rw [← compare_parts_iff]
  cases sign with
  | positive =>
      cases other with
      | positive => exact Option.some_inj.trans (and_iff_right rfl).symm
      | negative => exact iff_of_false nofun nofun
  | negative =>
      cases other with
      | positive => exact iff_of_false nofun nofun
      | negative =>
          exact (Option.some_inj.trans Ordering.swap_eq_eq).trans (and_iff_right rfl).symm

theorem compare_unpacked_iff {left right : UnpackedFloat}
    (canonical : ∀ negative mantissa exponent,
      Parts.ofUnpacked left = .finite negative mantissa exponent → IsCanonical mantissa exponent)
    (otherCanonical : ∀ negative mantissa exponent,
      Parts.ofUnpacked right = .finite negative mantissa exponent → IsCanonical mantissa exponent) :
    left.compare right = some .eq ↔ (Parts.ofUnpacked left).Same (.ofUnpacked right) := by
  cases left with
  | notANumber => exact iff_of_false nofun (not_same_of_nan _).1
  | infinity sign =>
      cases right with
      | notANumber => exact iff_of_false (by cases sign <;> exact nofun) (not_same_of_nan _).2
      | infinity other =>
          rw [same_iff (quantity?_infinity sign) (quantity?_infinity other),
            Quantity.infinite.injEq, ← compare_sign_iff]
          exact Option.some_inj
      | zero other =>
          rw [same_iff (quantity?_infinity sign) (quantity?_zero other)]
          exact iff_of_false (by cases sign <;> exact nofun) nofun
      | finite other mantissa exponent positive =>
          rw [same_iff (quantity?_infinity sign) (quantity?_finite positive)]
          exact iff_of_false (by cases sign <;> exact nofun) nofun
  | zero sign =>
      cases right with
      | notANumber => exact iff_of_false nofun (not_same_of_nan _).2
      | infinity other =>
          rw [same_iff (quantity?_zero sign) (quantity?_infinity other)]
          exact iff_of_false (by cases other <;> exact nofun) nofun
      | zero other =>
          rw [same_iff (quantity?_zero sign) (quantity?_zero other)]
          exact iff_of_true rfl rfl
      | finite other mantissa exponent positive =>
          rw [same_iff (quantity?_zero sign) (quantity?_finite positive)]
          refine iff_of_false (by cases other <;> exact nofun) ?_
          intro same
          exact signed_mul_ne_zero positive (Quantity.finite.inj same).symm
  | finite sign mantissa exponent positive =>
      cases right with
      | notANumber => exact iff_of_false nofun (not_same_of_nan _).2
      | infinity other =>
          rw [same_iff (quantity?_finite positive) (quantity?_infinity other)]
          exact iff_of_false (by cases other <;> exact nofun) nofun
      | zero other =>
          rw [same_iff (quantity?_finite positive) (quantity?_zero other)]
          refine iff_of_false (by cases sign <;> exact nofun) ?_
          intro same
          exact signed_mul_ne_zero positive (Quantity.finite.inj same)
      | finite other otherMantissa otherExponent otherPositive =>
          rw [same_iff (quantity?_finite positive) (quantity?_finite otherPositive),
            Quantity.finite.injEq, compare_finite_iff,
            signed_mul_inj (canonical _ _ _ rfl) (otherCanonical _ _ _ rfl) positive]

theorem beq_iff_same (left right : Float) :
    (left == right) = true ↔ (parts left).Same (parts right) := by
  have isBeq : (left == right) =
      (left.toModel.unpack.compare right.toModel.unpack == some .eq) := rfl
  rw [isBeq, beq_iff_eq, parts_eq_ofUnpacked, parts_eq_ofUnpacked]
  apply compare_unpacked_iff
  · intro _ _ _ isFinite
    exact isCanonical_of_parts ((parts_eq_ofUnpacked left).trans isFinite)
  · intro _ _ _ isFinite
    exact isCanonical_of_parts ((parts_eq_ofUnpacked right).trans isFinite)

theorem not_lt_of_beq {left right : Float} (same : (left == right) = true) : ¬left < right := by
  have isBeq : (left == right) =
      (left.toModel.unpack.compare right.toModel.unpack == some .eq) := rfl
  rw [isBeq, beq_iff_eq] at same
  intro less
  have isLess : (left.toModel.unpack.compare right.toModel.unpack == some .lt) = true :=
    of_decide_eq_true less
  rw [same] at isLess
  cases isLess

end Binary64

namespace Number

/-- What a number stands for, if it is one. -/
def quantity? : Number → Option Quantity
  | int value => some (.finite value)
  | float value => (Binary64.parts value).quantity?

theorem compareIntFinite_eq_iff (value : Int) (negative : Bool) (mantissa : Nat) (exponent : Int) :
    compareIntFinite value negative mantissa exponent = .eq ↔
      (value : ℚ) = Binary64.signed negative mantissa * 2 ^ exponent := by
  unfold compareIntFinite
  rw [compare_eq_iff_eq]
  obtain ⟨steps, rfl | rfl⟩ := exponent.eq_nat_or_neg
  · have noSteps : (-(steps : Int)).toNat = 0 := by omega
    rw [noSteps, Int.toNat_natCast, zpow_natCast]
    simp only [Nat.pow_eq, Nat.pow_zero, Int.ofNat_eq_natCast, Nat.cast_one, mul_one]
    exact_mod_cast Iff.rfl
  · have noSteps : (-(steps : Int)).toNat = 0 := by omega
    rw [noSteps, neg_neg, Int.toNat_natCast, zpow_neg, zpow_natCast,
      eq_mul_inv_iff_mul_eq₀ (by positivity)]
    simp only [Nat.pow_eq, Nat.pow_zero, Int.ofNat_eq_natCast, Nat.cast_one, mul_one]
    exact_mod_cast Iff.rfl

theorem compareIntFloat_eq_iff (left : Int) (right : Float) :
    compareIntFloat left right = some .eq ↔
      (Binary64.parts right).quantity? = some (.finite left) := by
  unfold compareIntFloat
  cases Binary64.parts right with
  | nan => exact iff_of_false nofun nofun
  | infinite negative => cases negative <;> exact iff_of_false nofun nofun
  | finite negative mantissa exponent =>
      rw [Option.some_inj, compareIntFinite_eq_iff, Binary64.Parts.quantity?, Option.some_inj,
        Quantity.finite.injEq]
      exact eq_comm

/-- Numbers are the same if they stand for one quantity. -/
theorem same_iff (left right : Number) :
    same left right = true ↔
      ∃ quantity, left.quantity? = some quantity ∧ right.quantity? = some quantity := by
  rw [same, beq_iff_eq]
  cases left with
  | int left =>
      simp only [quantity?, Option.some.injEq, exists_eq_left']
      cases right with
      | int right =>
          rw [compare?, Option.some_inj, compare_eq_iff_eq, Option.some_inj, Quantity.finite.injEq,
            Rat.intCast_inj, eq_comm]
      | float right => exact compareIntFloat_eq_iff left right
  | float left =>
      cases right with
      | int right =>
          have swapped : (compareIntFloat right left).map Ordering.swap = some .eq ↔
              compareIntFloat right left = some .eq := by
            rw [Option.map_eq_some_iff]
            simp only [Ordering.swap_eq_eq, exists_eq_right]
          rw [compare?, swapped, compareIntFloat_eq_iff]
          simp only [quantity?, Option.some.injEq, exists_eq_right']
      | float right =>
          change _ ↔ (Binary64.parts left).Same (Binary64.parts right)
          rw [← Binary64.beq_iff_same, compare?]
          split_ifs with less equal greater
          · exact iff_of_false nofun fun equal => Binary64.not_lt_of_beq equal less
          · exact iff_of_true rfl equal
          · exact iff_of_false nofun equal
          · exact iff_of_false nofun equal

end Number

end ConfigGraph
