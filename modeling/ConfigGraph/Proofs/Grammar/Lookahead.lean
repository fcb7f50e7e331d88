import ConfigGraph.Proofs.Grammar.Lexing
import Mathlib.Data.List.Find

/-!
# How far the lexer looks

The token that the lexer finds at the start of a text depends on little behind it: where the token
ends within a part of the text, it is the token of that part, and it stays the same when a boundary
follows the part.
-/

namespace ConfigGraph.Grammar

open Lexer

/-! ## Tokens that end within a text -/

theorem symbol?_within {allowed : Terminal → Bool} {table : List (Text × Terminal)}
    {near far : Text} {terminal : Terminal} {more : Nat}
    (nonempty : ∀ entry ∈ table, entry.1 ≠ [])
    (found : symbol? allowed table (near ++ far) = some (terminal, more))
    (room : more + 1 ≤ near.length) : symbol? allowed table near = some (terminal, more) := by
  obtain ⟨entry, isFirst, same⟩ := Option.map_eq_some_iff.mp found
  cases same
  obtain ⟨suits, before, behind, split, none⟩ := List.find?_eq_some_iff_append.mp isFirst
  simp only [Bool.and_eq_true, Text.startsWith, List.isPrefixOf_iff_prefix] at suits
  obtain ⟨can, starts⟩ := suits
  have member : entry ∈ table := by simp [split]
  have length := List.length_pos_iff.mpr (nonempty entry member)
  have inside : entry.1 <+: near :=
    List.prefix_of_prefix_length_le starts (List.prefix_append near far) (by omega)
  have isStillFirst : (table.find? fun entry => allowed entry.2 && near.startsWith entry.1) =
      some entry := by
    apply List.find?_eq_some_iff_append.mpr
    refine ⟨by simp [can, Text.startsWith, inside], before, behind, split, ?_⟩
    intro other isBefore
    have noOther := none other isBefore
    simp only [Bool.not_eq_true', Bool.and_eq_false_iff, Text.startsWith] at noOther ⊢
    apply noOther.imp_right
    intro notLonger
    apply Bool.eq_false_iff.mpr
    intro shorter
    have longer : other.1 <+: near ++ far :=
      (List.isPrefixOf_iff_prefix.mp shorter).trans (List.prefix_append near far)
    rw [List.isPrefixOf_iff_prefix.mpr longer] at notLonger
    cases notLonger
  rw [symbol?, isStillFirst]
  rfl

theorem stringLength?_within {near far : Text} {length : Nat}
    (found : stringLength? (near ++ far) = some length) (room : length ≤ near.length) :
    stringLength? near = some length := by
  obtain ⟨body, rest, isBody, split, rfl⟩ := stringBody_of_stringLength? found
  have inside : body ++ [CodePoint.ofChar '"'] <+: near := by
    apply List.prefix_of_prefix_length_le _ (List.prefix_append near far)
    · simpa using room
    · exact ⟨rest, by rw [split, List.append_assoc, List.singleton_append]⟩
  obtain ⟨others, rfl⟩ := inside
  rw [List.append_assoc, List.singleton_append]
  exact isBody.stringLength?_append others

theorem numberAt_within {first : CodePoint} {near far : Text}
    (room : (numberAt first (near ++ far)).length ≤ near.length + 1) :
    numberAt first (near ++ far) = numberAt first near := by
  have digits : ((near ++ far).takeWhile CodePoint.isDecimalDigit).length ≤ near.length := by
    simp only [Number.Literal.length, Number.Literal.after, List.length_cons] at room
    omega
  have same := takeWhile_within digits
  have inside : (near.takeWhile CodePoint.isDecimalDigit).length ≤ near.length :=
    (List.takeWhile_prefix _).length_le
  rw [numberAt, same, List.drop_append_of_le_length inside] at room ⊢
  apply Number.Literal.after_within
  simp only [List.length_cons, List.length_drop]
  omega

theorem numberAt_append {first : CodePoint} {near other : Text} (delimited : Delimited other) :
    numberAt first (near ++ other) = numberAt first near := by
  have inside : (near.takeWhile CodePoint.isDecimalDigit).length ≤ near.length :=
    (List.takeWhile_prefix _).length_le
  rw [numberAt, (delimited.stops isDecimalDigit_boundary).takeWhile_before,
    List.drop_append_of_le_length inside]
  exact Number.Literal.after_before (delimited.stops isDecimalDigit_boundary)
    (delimited.stops ne_point_boundary) (delimited.stops isExponentMark_boundary)
    (delimited.stops isSign_boundary) _ _

/-- A token that ends within a text is the one that the text has by itself. -/
theorem match?_within {allowed : Terminal → Bool} {first : CodePoint} {near far : Text}
    {terminal : Terminal} {more : Nat}
    (found : match? allowed first (near ++ far) = some (terminal, more))
    (room : more ≤ near.length) : match? allowed first near = some (terminal, more) := by
  apply match?_eq_some_iff.mpr
  cases match?_eq_some_iff.mp found with
  | word starts names =>
      rw [takeWhile_within room]
      exact .word starts names
  | reserved starts names found =>
      exact .reserved starts names
        (@symbol?_within _ _ (first :: near) far _ _ (by decide) found (Nat.succ_le_succ room))
  | number starts digit numbers =>
      rw [numberAt_within (Nat.sub_le_iff_le_add.mp room)]
      exact .number starts digit numbers
  | string quote strings found => exact .string quote strings (stringLength?_within found room)
  | symbol starts digit noQuote found =>
      exact .symbol starts digit noQuote
        (@symbol?_within _ _ (first :: near) far _ _ (by decide) found (Nat.succ_le_succ room))

/-! ## Boundaries behind a text -/

theorem symbol?_append {allowed : Terminal → Bool} {table : List (Text × Terminal)}
    {near other : Text} (inside : ∀ entry ∈ table, ∀ code ∈ entry.1, code ∉ boundaries)
    (delimited : Delimited other) :
    symbol? allowed table (near ++ other) = symbol? allowed table near := by
  rw [symbol?, symbol?]
  congr 1
  apply List.find?_congr
  intro entry member
  rw [Text.startsWith, Text.startsWith, isPrefixOf_append delimited (inside entry member)]

theorem match?_append {allowed : Terminal → Bool} {first : CodePoint} {near other : Text}
    {terminal : Terminal} {more : Nat} (found : match? allowed first near = some (terminal, more))
    (delimited : Delimited other) :
    match? allowed first (near ++ other) = some (terminal, more) := by
  apply match?_eq_some_iff.mpr
  cases match?_eq_some_iff.mp found with
  | word starts names =>
      rw [← (delimited.stops isNamePart_boundary).takeWhile_before near]
      exact .word starts names
  | reserved starts names found =>
      apply Matches.reserved starts names
      rw [← found]
      exact @symbol?_append _ _ (first :: near) _ inside_of_mem_words delimited
  | number starts digit numbers =>
      rw [← numberAt_append delimited]
      exact .number starts digit numbers
  | string quote strings found =>
      obtain ⟨body, rest, isBody, rfl, rfl⟩ := stringBody_of_stringLength? found
      apply Matches.string quote strings
      rw [List.append_assoc]
      exact isBody.stringLength?_append (rest ++ other)
  | symbol starts digit noQuote found =>
      apply Matches.symbol starts digit noQuote
      rw [← found]
      exact @symbol?_append _ _ (first :: near) _ inside_of_mem_symbols delimited

end ConfigGraph.Grammar
