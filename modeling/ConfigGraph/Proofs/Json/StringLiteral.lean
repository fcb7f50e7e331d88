import ConfigGraph.Json.Decode
import ConfigGraph.Json.Encode
import ConfigGraph.Proofs.Json.Spelling

/-!
# Strings in JSON

What is written for a string is one of its spellings.  So it reads back, unless a high surrogate
stands in front of a low one in the string.
-/

namespace ConfigGraph.Json

theorem spellsUnit_numericEscape {unit : CodePoint} (isUnit : unit.value < 0x10000) :
    SpellsUnit unit (numericEscape unit.value) := by
  have lower : ∀ digit < 16, (CodePoint.ofDigit digit).toAsciiLower = .ofDigit digit := by decide
  have written : numericEscape unit.value =
      CodePoint.ofChar '\\' :: CodePoint.ofChar 'u' :: Text.padded 16 4 unit.value := rfl
  rw [written]
  apply SpellsUnit.intro isUnit
  rw [Text.padded_unit isUnit, Text.toAsciiLower]
  simp only [List.map_cons, List.map_nil]
  rw [lower _ (by omega), lower _ (by omega), lower _ (by omega), lower _ (by omega)]

theorem spells_escape (code : CodePoint) : Spells (IsPlain true) code (escape code) := by
  unfold escape
  split
  case isTrue special =>
    rcases special with rfl | rfl <;> exact .short (by decide)
  case isFalse noSpecial =>
    obtain ⟨noQuote, noEscape⟩ := not_or.mp noSpecial
    split
    case isTrue isLine => exact isLine ▸ .short (by decide)
    split
    case isTrue isReturn => exact isReturn ▸ .short (by decide)
    split
    case isTrue isTab => exact isTab ▸ .short (by decide)
    split
    case isTrue isBackspace =>
      have same : code = ⟨8, by decide⟩ := CodePoint.eq_of_value isBackspace
      cases same
      exact .short (by decide)
    split
    case isTrue isFeed =>
      have same : code = ⟨12, by decide⟩ := CodePoint.eq_of_value isFeed
      cases same
      exact .short (by decide)
    split
    case isTrue printable =>
      have noControl := (CodePoint.within_iff.mp printable).1
      exact .plain ⟨noQuote, noEscape, fun _ => noControl⟩
    split
    case isTrue isUnit => exact .unit (spellsUnit_numericEscape isUnit)
    case isFalse noUnit =>
      have isAstral := Nat.le_of_not_lt noUnit
      have isHigh := spellsUnit_numericEscape (highHalf_lt code)
      have isLow := spellsUnit_numericEscape (lowHalf_lt code)
      exact .pair isAstral isHigh isLow

theorem spelling_escape (text : Text) :
    Spelling (IsPlain true) text (text.flatMap escape) := by
  induction text with
  | nil => exact .nil
  | cons code text induction =>
      rw [List.flatMap_cons]
      exact .cons (spells_escape code) induction

/-- What is written for a string reads back. -/
theorem decodeBody_escape {text : Text} (unpaired : text.Unpaired) (rest : Text) :
    decodeBody true (text.flatMap escape ++ CodePoint.ofChar '"' :: rest) = .ok (text, rest) := by
  obtain ⟨read, decoded, same⟩ := (spelling_escape text).decodeBody rest
  rw [decoded, same unpaired]

theorem readString_encodeString {text : Text} (unpaired : text.Unpaired) (rest : Text) :
    ∃ body, encodeString text ++ rest = CodePoint.ofChar '"' :: body ∧
      readString body = .ok (text, rest) := by
  refine ⟨text.flatMap escape ++ CodePoint.ofChar '"' :: rest, ?_, ?_⟩
  · simp only [encodeString, List.append_assoc]
    rfl
  · rw [readString, decodeBody_escape unpaired rest]

end ConfigGraph.Json
