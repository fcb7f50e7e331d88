import ConfigGraph.Json.Decode
import ConfigGraph.Json.Encode
import ConfigGraph.Proofs.Number.Literal
import ConfigGraph.Proofs.Text.Digits
import Mathlib.Data.List.Find
import Mathlib.Tactic.IntervalCases

/-!
# Words and numbers in JSON

A word or a number that stands alone is read in the same way in front of whatever may follow a value
that is written.  Integers read back.
-/

namespace ConfigGraph.Json

/-- A text in front of which a value ends. -/
inductive Ended : Text → Prop where
  | nil : Ended []
  | comma (rest : Text) : Ended (CodePoint.ofChar ',' :: rest)
  | line (rest : Text) : Ended (CodePoint.ofChar '\n' :: rest)

variable {rest : Text}

theorem Ended.stops (ended : Ended rest) {good : CodePoint → Bool}
    (noComma : good ',' = false) (noLine : good '\n' = false) : Stops good rest := by
  cases ended with
  | nil => exact fun _ _ same => nomatch same
  | comma rest => exact .cons noComma
  | line rest => exact .cons noLine

theorem Ended.stops_digits (ended : Ended rest) : Stops CodePoint.isAsciiDigit rest :=
  ended.stops (by decide) (by decide)

/-! ## Numbers -/

theorem literal_before (ended : Ended rest) (whole text : Text) :
    Number.Literal.after CodePoint.isAsciiDigit whole (text ++ rest) =
      Number.Literal.after CodePoint.isAsciiDigit whole text :=
  Number.Literal.after_before ended.stops_digits (ended.stops (by decide) (by decide))
    (ended.stops (by decide) (by decide)) (ended.stops (by decide) (by decide)) whole text

theorem wholeDigits_before (ended : Ended rest) (text : Text) :
    wholeDigits (text ++ rest) = wholeDigits text := by
  unfold wholeDigits
  rw [ended.stops_digits.takeWhile_before]
  cases text with
  | nil => cases ended <;> rfl
  | cons code text => rfl

theorem wholeDigits_length_le (text : Text) : (wholeDigits text).length ≤ text.length := by
  unfold wholeDigits
  split
  · exact List.length_take_le' 1 text
  · exact (List.takeWhile_prefix _).length_le

/-- The literal at the start of a text without its sign. -/
def readUnsigned? (negative : Bool) (text : Text) : Option ((Bool × Number.Literal) × Text) :=
  let whole := wholeDigits text
  if whole = [] then none
  else
    let literal := Number.Literal.after CodePoint.isAsciiDigit whole (text.drop whole.length)
    some ((negative, literal), text.drop literal.length)

theorem readLiteral?_minus (text : Text) :
    readLiteral? (CodePoint.ofChar '-' :: text) = readUnsigned? true text := rfl

theorem readLiteral?_of_ne {code : CodePoint} (unsigned : code ≠ '-') (text : Text) :
    readLiteral? (code :: text) = readUnsigned? false (code :: text) := by
  have noSign : ¬(code :: text).head? = some (CodePoint.ofChar '-') :=
    fun same => unsigned (Option.some.inj same)
  unfold readLiteral?
  dsimp only
  split
  case isTrue same => exact absurd same noSign
  case isFalse => rw [decide_eq_false (by assumption), readUnsigned?]

theorem readUnsigned?_before (ended : Ended rest) {negative : Bool} {text behind : Text}
    {signed : Bool × Number.Literal} (found : readUnsigned? negative text = some (signed, behind)) :
    readUnsigned? negative (text ++ rest) = some (signed, behind ++ rest) := by
  have whole := wholeDigits_length_le text
  unfold readUnsigned? at found ⊢
  dsimp only at found ⊢
  rw [wholeDigits_before ended, List.drop_append_of_le_length whole,
    literal_before ended]
  split at found
  case isTrue => cases found
  case isFalse nonempty =>
    have literal := Number.Literal.length_after_le CodePoint.isAsciiDigit (wholeDigits text)
      (text.drop (wholeDigits text).length)
    rw [List.length_drop] at literal
    rw [if_neg nonempty, List.drop_append_of_le_length (by omega)]
    cases found
    rfl

/-- A literal is read in the same way in front of what may follow it. -/
theorem readLiteral?_before (ended : Ended rest) {text behind : Text}
    {signed : Bool × Number.Literal} (found : readLiteral? text = some (signed, behind)) :
    readLiteral? (text ++ rest) = some (signed, behind ++ rest) := by
  cases text with
  | nil => cases found
  | cons code text =>
      by_cases isMinus : code = '-'
      · rw [isMinus, readLiteral?_minus] at found
        rw [isMinus, List.cons_append, readLiteral?_minus, readUnsigned?_before ended found]
      · rw [readLiteral?_of_ne isMinus] at found
        rw [List.cons_append, readLiteral?_of_ne isMinus, ← List.cons_append,
          readUnsigned?_before ended found]

/-! ## Words -/

/-- No word holds a comma or the end of a line. -/
theorem startsWith_before (ended : Ended rest) {word : Text}
    (plain : ∀ code ∈ word, code ≠ ',' ∧ code ≠ '\n') (text : Text) :
    (text ++ rest).startsWith word = text.startsWith word := by
  unfold Text.startsWith
  induction word generalizing text with
  | nil => simp
  | cons code word induction =>
      obtain ⟨⟨noComma, noLine⟩, plain⟩ := List.forall_mem_cons.mp plain
      cases text with
      | nil =>
          cases ended with
          | nil => rfl
          | comma others => simp [List.isPrefixOf, noComma]
          | line others => simp [List.isPrefixOf, noLine]
      | cons other text =>
          rw [List.cons_append, List.isPrefixOf_cons_cons, List.isPrefixOf_cons_cons, induction plain]

theorem plain_words : ∀ word ∈ words, ∀ code ∈ word.1, code ≠ ',' ∧ code ≠ '\n' := by decide

/-- A word or a number is read in the same way in front of what may follow it. -/
theorem readScalar_before (ended : Ended rest) {text behind : Text} {json : Json}
    (read : readScalar text = .ok (json, behind)) :
    readScalar (text ++ rest) = .ok (json, behind ++ rest) := by
  have sameWord : (words.find? fun word => (text ++ rest).startsWith word.1) =
      words.find? fun word => text.startsWith word.1 :=
    List.find?_congr fun word member => startsWith_before ended (plain_words word member) text
  unfold readScalar at read ⊢
  rw [sameWord]
  split at read
  case h_1 word value found =>
    cases read
    have isPrefix : word <+: text := by
      simpa [Text.startsWith] using List.find?_some found
    rw [List.drop_append_of_le_length isPrefix.length_le]
  case h_2 =>
    split at read
    case h_1 negative literal others found =>
      rw [readLiteral?_before ended found]
      dsimp only at read ⊢
      split at read
      case isTrue => cases read
      case isFalse short =>
        cases read
        rw [if_neg short]
    case h_2 => cases read

/-- Code points with which no value starts; the last one is the byte order mark. -/
def neverFirst : List CodePoint := [']', '}', ' ', '\t', '\n', '\r', ⟨0xfeff, by decide⟩]

/-- Code points with which no word and no number starts. -/
def others : List CodePoint := '"' :: '[' :: '{' :: neverFirst

theorem readScalar_of_other {code : CodePoint} (other : code ∈ others) (rest : Text) :
    readScalar (code :: rest) = failAt .expectingValue (code :: rest) := by
  simp only [others, neverFirst, List.mem_cons, List.not_mem_nil, or_false] at other
  rcases other with rfl | rfl | rfl | rfl | rfl | rfl | rfl | rfl | rfl | rfl <;> rfl

theorem head_of_readScalar {text : Text} {result : Json × Text}
    (read : readScalar text = .ok result) : ∃ code rest, text = code :: rest ∧ code ∉ others := by
  cases text with
  | nil => cases read
  | cons code rest =>
      refine ⟨code, rest, rfl, fun other => ?_⟩
      rw [readScalar_of_other other] at read
      cases read

/-- A value that starts as a word or a number is one. -/
theorem readValue_of_readScalar {text : Text} {result : Json × Text}
    (read : readScalar text = .ok result) (bound : Nat) :
    readValue (bound + 1) text = .ok result := by
  obtain ⟨code, rest, rfl, notOther⟩ := head_of_readScalar read
  have noQuote : code ≠ '"' := fun same => notOther (same ▸ by decide)
  have noBracket : code ≠ '[' := fun same => notOther (same ▸ by decide)
  have noBrace : code ≠ '{' := fun same => notOther (same ▸ by decide)
  rw [readValue, if_neg noQuote, if_neg noBracket, if_neg noBrace]
  exact read

/-! ## Integers -/

theorem wholeDigits_ofNat (number : Nat) : wholeDigits (Text.ofNat number) = Text.ofNat number := by
  obtain ⟨first, row, split, isDigit, nonzero, digits⟩ := Text.ofNat_row number
  rw [split, wholeDigits]
  split
  case isTrue isZero =>
    have same : CodePoint.ofDigit first = '0' := Option.some.inj isZero
    obtain ⟨_, rfl⟩ := nonzero
      (Classical.byContradiction fun other => CodePoint.ofDigit_ne_zero first isDigit other same)
    rfl
  case isFalse =>
    exact List.takeWhile_eq_self_iff.mpr (List.forall_mem_cons.mpr
      ⟨CodePoint.isAsciiDigit_ofDigit first isDigit, digits⟩)

theorem ofNat_ne_nil (number : Nat) : Text.ofNat number ≠ [] := by
  obtain ⟨first, row, split, _⟩ := Text.ofNat_row number
  rw [split]
  exact List.cons_ne_nil _ _

/-- The literal of an integer, without its sign. -/
def literalOf (number : Nat) : Number.Literal := ⟨Text.ofNat number, none, none⟩

theorem value_literalOf (negative : Bool) (number : Nat) :
    (literalOf number).value negative =
      .int (if negative then -Int.ofNat number else Int.ofNat number) := by
  simp [literalOf, Number.Literal.value, Number.ofDigits_ofNat]

/-- A literal is not too long just if its integer can be written. -/
theorem isTooLong_literalOf {value : Int} (writable : isWritable value = true) :
    (literalOf value.natAbs).isTooLong = false :=
  decide_eq_false (Nat.not_lt.mpr (of_decide_eq_true writable))

/-- The digits of a number are the literal of an integer. -/
theorem readUnsigned?_ofNat (negative : Bool) (number : Nat) :
    readUnsigned? negative (Text.ofNat number) = some ((negative, literalOf number), []) := by
  have literal : Number.Literal.after CodePoint.isAsciiDigit (Text.ofNat number) [] =
      literalOf number := rfl
  unfold readUnsigned?
  dsimp only
  rw [wholeDigits_ofNat, if_neg (ofNat_ne_nil number), List.drop_length, literal]
  simp [literalOf, Number.Literal.length, Number.Literal.fractionLength,
    Number.Literal.exponentLength]

/-- No word starts with a digit, or with a minus sign and a digit. -/
theorem find?_words_of_digit {first : Nat} (isDigit : first < 10) (row : Text) :
    (words.find? fun word => Text.startsWith (CodePoint.ofDigit first :: row) word.1) = none ∧
      (words.find? fun word =>
        Text.startsWith (CodePoint.ofChar '-' :: CodePoint.ofDigit first :: row) word.1) = none := by
  interval_cases first <;> exact ⟨rfl, rfl⟩

theorem ofDigit_ne_minus : ∀ digit < 10, CodePoint.ofDigit digit ≠ '-' := by decide

theorem readLiteral?_ofInt (value : Int) :
    readLiteral? (Text.ofInt value) =
      some ((decide (value < 0), literalOf value.natAbs), []) := by
  cases value with
  | ofNat number =>
      obtain ⟨first, row, split, isDigit, _⟩ := Text.ofNat_row number
      have read := readUnsigned?_ofNat false number
      rw [split] at read
      rw [Text.ofInt, split, readLiteral?_of_ne (ofDigit_ne_minus first isDigit), read]
      rfl
  | negSucc number =>
      rw [Text.ofInt, readLiteral?_minus, readUnsigned?_ofNat,
        decide_eq_true (Int.negSucc_lt_zero number), Int.natAbs_negSucc]

/-- An integer that can be written is read back. -/
theorem readScalar_ofInt {value : Int} (writable : isWritable value = true) :
    readScalar (Text.ofInt value) = .ok (.number (.int value), []) := by
  have noWord : (words.find? fun word => (Text.ofInt value).startsWith word.1) = none := by
    cases value with
    | ofNat number =>
        obtain ⟨first, row, split, isDigit, _⟩ := Text.ofNat_row number
        rw [Text.ofInt, split]
        exact (find?_words_of_digit isDigit row).1
    | negSucc number =>
        obtain ⟨first, row, split, isDigit, _⟩ := Text.ofNat_row (number + 1)
        rw [Text.ofInt, split]
        exact (find?_words_of_digit isDigit row).2
  have sameValue : (literalOf value.natAbs).value (decide (value < 0)) = .int value := by
    rw [value_literalOf]
    cases value with
    | ofNat number => rfl
    | negSucc number =>
        rw [decide_eq_true (Int.negSucc_lt_zero number), if_pos rfl, Int.natAbs_negSucc]
        rfl
  unfold readScalar
  rw [noWord, readLiteral?_ofInt]
  dsimp only
  rw [isTooLong_literalOf writable, if_neg Bool.false_ne_true, sameValue]

end ConfigGraph.Json
