import ConfigGraph.Text.Basic
import Mathlib.Data.List.TakeWhile

/-!
# Rows of code points

A row of code points of a class that starts a text is taken as a whole, if the text behind it does
not go on with the class.
-/

namespace ConfigGraph

theorem CodePoint.within_iff {code : CodePoint} {low high : Nat} :
    code.within low high = true ↔ low ≤ code.value ∧ code.value ≤ high := by
  simp [within]

/-- A text in front of which a row of code points of a class ends. -/
def Stops (good : CodePoint → Bool) (text : Text) : Prop :=
  ∀ code rest, text = code :: rest → good code = false

theorem Stops.cons {good : CodePoint → Bool} {code : CodePoint} {rest : Text}
    (bad : good code = false) : Stops good (code :: rest) := by
  rintro other others same
  cases same
  exact bad

/-- A row at the start of a text stays the same when nothing behind the text goes on with it. -/
theorem Stops.takeWhile_before {good : CodePoint → Bool} {rest : Text} (stops : Stops good rest)
    (text : Text) : (text ++ rest).takeWhile good = text.takeWhile good := by
  induction text with
  | nil =>
      cases rest with
      | nil => rfl
      | cons code rest =>
          rw [List.nil_append, List.takeWhile_cons, stops code rest rfl]
          rfl
  | cons code text induction => rw [List.cons_append, List.takeWhile_cons, List.takeWhile_cons,
      induction]

theorem Stops.takeWhile_append {good : CodePoint → Bool} {row rest : Text} (stops : Stops good rest)
    (all : ∀ code ∈ row, good code = true) : (row ++ rest).takeWhile good = row :=
  (stops.takeWhile_before row).trans (List.takeWhile_eq_self_iff.mpr all)

theorem take_length_takeWhile (good : CodePoint → Bool) (text : Text) :
    text.take (text.takeWhile good).length = text.takeWhile good :=
  List.prefix_iff_eq_take.mp (List.takeWhile_prefix good) |>.symm

/-- A row that ends within a text is a row of that text. -/
theorem takeWhile_within {good : CodePoint → Bool} {near far : Text}
    (room : ((near ++ far).takeWhile good).length ≤ near.length) :
    (near ++ far).takeWhile good = near.takeWhile good := by
  rw [List.takeWhile_append] at room ⊢
  split at room
  case isTrue all =>
    have isRow := (List.takeWhile_prefix good).eq_of_length all
    have nothing : far.takeWhile good = [] := by
      apply List.length_eq_zero_iff.mp
      simp only [List.length_append] at room
      omega
    rw [if_pos all, nothing, List.append_nil, isRow]
  case isFalse some => rw [if_neg some]

/-- A row at the start of a text goes on in a longer text, if at all. -/
theorem takeWhile_ne_nil_append {good : CodePoint → Bool} {near : Text} (far : Text)
    (nonempty : near.takeWhile good ≠ []) : (near ++ far).takeWhile good ≠ [] := by
  cases near with
  | nil => exact absurd rfl nonempty
  | cons code near =>
      rw [List.takeWhile_cons] at nonempty
      rw [List.cons_append, List.takeWhile_cons]
      split
      · exact List.cons_ne_nil _ _
      case isFalse bad => simp [bad] at nonempty

end ConfigGraph
