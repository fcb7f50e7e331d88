import ConfigGraph.Number.Literal
import ConfigGraph.Proofs.Text.Row

/-!
# Literals in front of other texts

A literal at the start of a text stays the same in front of what does not go on with it.  It has room
in its text.
-/

namespace ConfigGraph.Number.Literal

variable {isDigit : CodePoint → Bool} {rest : Text}

theorem fraction?_of_stops (point : Stops (· == '.') rest) : fraction? isDigit rest = none := by
  cases rest with
  | nil => rfl
  | cons code rest =>
      rw [fraction?, if_neg]
      exact fun present => absurd present.1 (beq_eq_false_iff_ne.mp (point code rest rfl))

theorem fraction?_before (digits : Stops isDigit rest) (point : Stops (· == '.') rest)
    (text : Text) : fraction? isDigit (text ++ rest) = fraction? isDigit text := by
  cases text with
  | nil => exact fraction?_of_stops point
  | cons code text => rw [List.cons_append, fraction?, fraction?, digits.takeWhile_before]

theorem exponent?_of_stops (mark : Stops isExponentMark rest) : exponent? isDigit rest = none := by
  cases rest with
  | nil => rfl
  | cons code rest =>
      rw [exponent?, if_neg]
      exact fun present => absurd present.1 (by simp [mark code rest rfl])

/-- A sign is at most one code point of a text. -/
theorem sign_length_le (text : Text) : (text.head?.filter isSign).toList.length ≤ text.length := by
  cases text with
  | nil => exact Nat.le_refl _
  | cons code text =>
      rw [List.head?_cons, Option.filter_some]
      split <;> simp

theorem exponent?_before (digits : Stops isDigit rest) (mark : Stops isExponentMark rest)
    (sign : Stops isSign rest) (text : Text) :
    exponent? isDigit (text ++ rest) = exponent? isDigit text := by
  cases text with
  | nil => exact exponent?_of_stops mark
  | cons code text =>
      have signs : (text ++ rest).head?.filter isSign = text.head?.filter isSign := by
        cases text with
        | nil =>
            cases rest with
            | nil => rfl
            | cons next rest => simp [Option.filter, sign next rest rfl]
        | cons next text => rfl
      rw [List.cons_append, exponent?, exponent?, signs,
        List.drop_append_of_le_length (sign_length_le text), digits.takeWhile_before]

theorem fractionLength_le (isDigit : CodePoint → Bool) (text : Text) :
    fractionLength (fraction? isDigit text) ≤ text.length := by
  cases text with
  | nil => exact Nat.le_refl _
  | cons point text =>
      have row := (List.takeWhile_prefix isDigit (l := text)).length_le
      rw [fraction?]
      split
      · simpa [fractionLength] using row
      · exact Nat.zero_le _

theorem exponentLength_le (isDigit : CodePoint → Bool) (text : Text) :
    exponentLength (exponent? isDigit text) ≤ text.length := by
  cases text with
  | nil => exact Nat.le_refl _
  | cons mark text =>
      have row := (List.takeWhile_prefix isDigit
        (l := text.drop (text.head?.filter isSign).toList.length)).length_le
      have sign := sign_length_le text
      rw [List.length_drop] at row
      rw [exponent?]
      split
      · simp only [exponentLength, Option.map_some, Option.getD_some, List.length_cons]
        omega
      · exact Nat.zero_le _

theorem length_after_le (isDigit : CodePoint → Bool) (whole text : Text) :
    (after isDigit whole text).length ≤ whole.length + text.length := by
  have fraction := fractionLength_le isDigit text
  have exponent := exponentLength_le isDigit
    (text.drop (fractionLength (fraction? isDigit text)))
  rw [List.length_drop] at exponent
  simp only [length, after]
  omega

theorem after_before (digits : Stops isDigit rest) (point : Stops (· == '.') rest)
    (mark : Stops isExponentMark rest) (sign : Stops isSign rest) (whole text : Text) :
    after isDigit whole (text ++ rest) = after isDigit whole text := by
  have room := fractionLength_le isDigit text
  rw [after, after, fraction?_before digits point, List.drop_append_of_le_length room,
    exponent?_before digits mark sign]

/-! ## Literals that end within a text -/

theorem fraction?_within {near far : Text}
    (room : fractionLength (fraction? isDigit (near ++ far)) ≤ near.length) :
    fraction? isDigit (near ++ far) = fraction? isDigit near := by
  cases near with
  | nil =>
      cases found : fraction? isDigit ([] ++ far) with
      | none => rfl
      | some digits =>
          rw [found, fractionLength, Option.map_some, Option.getD_some] at room
          cases room
  | cons point near =>
      rw [List.cons_append, fraction?] at room ⊢
      rw [fraction?]
      by_cases present : point = '.' ∧ (near ++ far).takeWhile isDigit ≠ []
      · rw [if_pos present] at room
        simp only [fractionLength, Option.map_some, Option.getD_some, List.length_cons] at room
        have same := takeWhile_within (Nat.le_of_succ_le_succ room)
        rw [same]
      · rw [if_neg present, if_neg]
        rintro ⟨isPoint, digits⟩
        exact present ⟨isPoint, takeWhile_ne_nil_append far digits⟩

theorem exponent?_within {near far : Text}
    (room : exponentLength (exponent? isDigit (near ++ far)) ≤ near.length) :
    exponent? isDigit (near ++ far) = exponent? isDigit near := by
  cases near with
  | nil =>
      cases found : exponent? isDigit ([] ++ far) with
      | none => rfl
      | some parts =>
          obtain ⟨sign, digits⟩ := parts
          rw [found] at room
          simp only [exponentLength, Option.map_some, Option.getD_some, List.length_nil] at room
          omega
  | cons mark near =>
      have signs : ((near ++ far).head?.filter isSign).toList.length ≤ near.length →
          (near ++ far).head?.filter isSign = near.head?.filter isSign := by
        cases near with
        | nil =>
            intro short
            cases sign : ([] ++ far : Text).head?.filter isSign with
            | none => rfl
            | some code =>
                rw [sign] at short
                cases short
        | cons code near => exact fun _ => rfl
      rw [List.cons_append, exponent?] at room ⊢
      rw [exponent?]
      by_cases present : isExponentMark mark = true ∧
          ((near ++ far).drop ((near ++ far).head?.filter isSign).toList.length).takeWhile
            isDigit ≠ []
      · rw [if_pos present] at room
        simp only [exponentLength, Option.map_some, Option.getD_some, List.length_cons] at room
        have some := List.length_pos_iff.mpr present.2
        have sign := signs (by omega)
        have inside := sign_length_le near
        rw [sign, List.drop_append_of_le_length inside] at room ⊢
        have same := @takeWhile_within isDigit
          (near.drop (near.head?.filter isSign).toList.length) far (by
            rw [List.length_drop]
            omega)
        rw [same]
      · rw [if_neg present, if_neg]
        rintro ⟨isMark, digits⟩
        refine present ⟨isMark, ?_⟩
        cases near with
        | nil => simp at digits
        | cons code near =>
            have inside := sign_length_le (code :: near)
            have sign : (code :: near ++ far).head?.filter isSign =
                (code :: near).head?.filter isSign := rfl
            rw [sign, List.drop_append_of_le_length inside]
            exact takeWhile_ne_nil_append far digits

theorem after_within {whole near far : Text}
    (room : (after isDigit whole (near ++ far)).length ≤ whole.length + near.length) :
    after isDigit whole (near ++ far) = after isDigit whole near := by
  simp only [length, after] at room
  have fraction := @fraction?_within isDigit near far (by omega)
  have inside := fractionLength_le isDigit near
  rw [fraction, List.drop_append_of_le_length inside] at room
  have exponent := @exponent?_within isDigit
    (near.drop (fractionLength (fraction? isDigit near))) far (by
      rw [List.length_drop]
      omega)
  rw [after, after, fraction, List.drop_append_of_le_length inside, exponent]

end ConfigGraph.Number.Literal
