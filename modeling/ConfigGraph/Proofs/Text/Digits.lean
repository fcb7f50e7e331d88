import ConfigGraph.Number.Literal
import ConfigGraph.Proofs.Text.Row

/-!
# Numbers as rows of digits

A natural number is written as a row of digits that does not start with a zero, unless the number is
zero, and the row spells the number again.
-/

namespace ConfigGraph

namespace CodePoint

theorem decimalDigit?_ofDigit : ∀ digit < 10, (ofDigit digit).decimalDigit? = some digit := by
  decide

theorem isAsciiDigit_ofDigit : ∀ digit < 10, (ofDigit digit).isAsciiDigit = true := by decide

theorem ofDigit_ne_zero : ∀ digit < 10, digit ≠ 0 → ofDigit digit ≠ '0' := by decide

theorem hexDigit?_ofDigit : ∀ digit < 16, (ofDigit digit).hexDigit? = some digit := by decide

end CodePoint

namespace Text

variable {base bound number : Nat}

theorem digitsFrom_of_lt (small : number < base) (tail : Text) :
    digitsFrom base (bound + 1) number tail = CodePoint.ofDigit number :: tail := by
  rw [digitsFrom, if_pos small, Nat.mod_eq_of_lt small]

theorem digitsFrom_of_le (large : base ≤ number) (tail : Text) :
    digitsFrom base (bound + 1) number tail =
      digitsFrom base bound (number / base) (CodePoint.ofDigit (number % base) :: tail) := by
  rw [digitsFrom, if_neg (Nat.not_lt.mpr large)]

theorem div_lt_of_fits (fits : number < Nat.pow base (bound + 1)) :
    number / base < Nat.pow base bound :=
  Nat.div_lt_of_lt_mul (Nat.lt_of_lt_of_eq fits (Nat.mul_comm _ _))

/-- As long as there is room for all digits it does not count how much. -/
theorem digitsFrom_room {room : Nat} (fits : number < Nat.pow base (bound + 1))
    (otherFits : number < Nat.pow base (room + 1)) (tail : Text) :
    digitsFrom base (bound + 1) number tail = digitsFrom base (room + 1) number tail := by
  induction bound generalizing room number tail with
  | zero =>
      have small : number < base := by simpa using fits
      rw [digitsFrom_of_lt small, digitsFrom_of_lt small]
  | succ bound induction =>
      rcases Nat.lt_or_ge number base with small | large
      · rw [digitsFrom_of_lt small, digitsFrom_of_lt small]
      · cases room with
        | zero => exact absurd (by simpa using otherFits) (Nat.not_lt.mpr large)
        | succ room =>
            rw [digitsFrom_of_le large, digitsFrom_of_le large,
              induction (div_lt_of_fits fits) (div_lt_of_fits otherFits)]

theorem digitsFrom_append (bound number : Nat) (tail : Text) :
    digitsFrom base bound number tail = digitsFrom base bound number [] ++ tail := by
  induction bound generalizing number tail with
  | zero => rfl
  | succ bound induction =>
      rcases Nat.lt_or_ge number base with small | large
      · rw [digitsFrom_of_lt small, digitsFrom_of_lt small]
        rfl
      · rw [digitsFrom_of_le large, digitsFrom_of_le large, induction, induction _ [_]]
        simp

theorem ofNatBase_of_lt (small : number < base) :
    ofNatBase base number = [CodePoint.ofDigit number] :=
  digitsFrom_of_lt small []

/-- The last digit of a number stands behind the others. -/
theorem ofNatBase_of_le (two : 2 ≤ base) (large : base ≤ number) :
    ofNatBase base number =
      ofNatBase base (number / base) ++ [CodePoint.ofDigit (number % base)] := by
  have room (number : Nat) : number < Nat.pow base (number.log2 + 1) :=
    Nat.lt_of_lt_of_le Nat.lt_log2_self (Nat.pow_le_pow_left two _)
  have more : 0 < number.log2 :=
    (Nat.le_log2 (by omega)).mpr (by simpa using Nat.le_trans two large)
  obtain ⟨bound, isBound⟩ := Nat.exists_eq_add_one.mpr more
  have fits : number / base < Nat.pow base (bound + 1) := by
    rw [← isBound]
    exact div_lt_of_fits (room number)
  rw [ofNatBase, digitsFrom_of_le large, digitsFrom_append, isBound,
    digitsFrom_room fits (room _), ofNatBase]

/-- The digits of a number in decimal; behind a leading zero there are no others. -/
theorem ofNat_row (number : Nat) :
    ∃ first row, ofNat number = CodePoint.ofDigit first :: row ∧ first < 10 ∧
      (first = 0 → number = 0 ∧ row = []) ∧ ∀ code ∈ row, code.isAsciiDigit = true := by
  induction number using Nat.strongRecOn with
  | ind number induction =>
      rcases Nat.lt_or_ge number 10 with small | large
      · exact ⟨number, [], ofNatBase_of_lt small, small, fun isZero => ⟨isZero, rfl⟩,
          List.forall_mem_nil _⟩
      · obtain ⟨first, row, split, isDigit, nonzero, digits⟩ := induction (number / 10) (by omega)
        refine ⟨first, row ++ [CodePoint.ofDigit (number % 10)], ?_, isDigit, ?_, ?_⟩
        · rw [ofNat, ofNatBase_of_le (by decide) large, ← ofNat, split, List.cons_append]
        · intro isZero
          have none := (nonzero isZero).1
          omega
        · exact List.forall_mem_append.mpr ⟨digits, List.forall_mem_singleton.mpr
            (CodePoint.isAsciiDigit_ofDigit _ (Nat.mod_lt _ (by decide)))⟩

theorem ofNat_ne_nil (number : Nat) : ofNat number ≠ [] := by
  obtain ⟨first, row, split, _⟩ := ofNat_row number
  rw [split]
  exact List.cons_ne_nil _ _

/-- The numbers below a power of ten have as many digits as its exponent at most. -/
theorem length_ofNat_le_iff {number width : Nat} (positive : 0 < width) :
    (ofNat number).length ≤ width ↔ number < Nat.pow 10 width := by
  induction number using Nat.strongRecOn generalizing width with
  | ind number induction =>
      obtain ⟨less, rfl⟩ := Nat.exists_eq_add_one.mpr positive
      rcases Nat.lt_or_ge number 10 with small | large
      · have enough : number < Nat.pow 10 (less + 1) :=
          Nat.lt_of_lt_of_le small (Nat.le_pow positive)
        rw [ofNat, ofNatBase_of_lt small]
        exact iff_of_true positive enough
      · have shorter : number < Nat.pow 10 (less + 1) ↔ number / 10 < Nat.pow 10 less :=
          (Nat.div_lt_iff_lt_mul (by decide)).symm
        rw [shorter, ofNat, ofNatBase_of_le (by decide) large, ← ofNat, List.length_append,
          List.length_singleton, Nat.add_le_add_iff_right]
        cases less with
        | zero =>
            have some := List.length_pos_iff.mpr (ofNat_ne_nil (number / 10))
            have tens : 0 < number / 10 := by omega
            exact iff_of_false (by omega) (by simpa using Nat.pos_iff_ne_zero.mp tens)
        | succ less => exact induction (number / 10) (by omega) (Nat.succ_pos less)

/-- A number that is padded to more than one digit ends with its last one. -/
theorem padded_add_two (two : 2 ≤ base) (width number : Nat) :
    padded base (width + 2) number =
      padded base (width + 1) (number / base) ++ [CodePoint.ofDigit (number % base)] := by
  unfold padded
  dsimp only
  rcases Nat.lt_or_ge number base with small | large
  · have zero : CodePoint.ofDigit 0 = ('0' : CodePoint) := by decide
    rw [ofNatBase_of_lt small, Nat.div_eq_of_lt small, ofNatBase_of_lt (by omega),
      Nat.mod_eq_of_lt small, zero]
    simp only [List.length_singleton, Nat.add_sub_cancel, ← List.replicate_succ']
    rfl
  · have rest : width + 2 - ((ofNatBase base (number / base)).length + 1) =
        width + 1 - (ofNatBase base (number / base)).length := by omega
    rw [ofNatBase_of_le two large, List.length_append, List.length_singleton, rest,
      List.append_assoc]

theorem padded_one (small : number < base) : padded base 1 number = [CodePoint.ofDigit number] := by
  unfold padded
  rw [ofNatBase_of_lt small]
  rfl

/-- A unit of sixteen bits has four hexadecimal digits. -/
theorem padded_unit {unit : Nat} (isUnit : unit < 0x10000) :
    padded 16 4 unit =
      [CodePoint.ofDigit (unit / 16 / 16 / 16), CodePoint.ofDigit (unit / 16 / 16 % 16),
        CodePoint.ofDigit (unit / 16 % 16), CodePoint.ofDigit (unit % 16)] := by
  rw [padded_add_two (by decide), padded_add_two (by decide), padded_add_two (by decide),
    padded_one (by omega)]
  rfl

end Text

namespace Number

/-- The digits of a number spell it. -/
theorem ofDigits_ofNat (number : Nat) : ofDigits (Text.ofNat number) = number := by
  induction number using Nat.strongRecOn with
  | ind number induction =>
      rcases Nat.lt_or_ge number 10 with small | large
      · rw [Text.ofNat, Text.ofNatBase_of_lt small]
        simp [ofDigits, CodePoint.decimalDigit?_ofDigit number small]
      · have others := induction (number / 10) (by omega)
        rw [ofDigits, Text.ofNat] at others
        rw [ofDigits, Text.ofNat, Text.ofNatBase_of_le (by decide) large, List.foldl_append,
          others, List.foldl_cons, List.foldl_nil,
          CodePoint.decimalDigit?_ofDigit _ (Nat.mod_lt _ (by decide))]
        exact Nat.div_add_mod number 10

end Number

end ConfigGraph
