import ConfigGraph.Json.Encode
import ConfigGraph.Proofs.Text.Row

/-!
# The text of plain data is ASCII

Whatever the strings in plain data hold, their text has ASCII code points only, so that it can be
written in every encoding.
-/

namespace ConfigGraph

namespace Text

/-- A text of ASCII code points. -/
def Ascii (text : Text) : Prop := ∀ code ∈ text, code.value < 0x80

instance (text : Text) : Decidable text.Ascii :=
  inferInstanceAs (Decidable (∀ code ∈ text, code.value < 0x80))

theorem Ascii.append {text rest : Text} (ascii : text.Ascii) (restAscii : rest.Ascii) :
    (text ++ rest : Text).Ascii := List.forall_mem_append.mpr ⟨ascii, restAscii⟩

theorem Ascii.cons {code : CodePoint} {text : Text} (isAscii : code.value < 0x80)
    (ascii : text.Ascii) : Ascii (code :: text) := List.forall_mem_cons.mpr ⟨isAscii, ascii⟩

theorem ascii_nil : Ascii [] := List.forall_mem_nil _

theorem Ascii.take {text : Text} (ascii : text.Ascii) (count : Nat) : Ascii (text.take count) :=
  fun code member => ascii code (List.mem_of_mem_take member)

theorem Ascii.drop {text : Text} (ascii : text.Ascii) (count : Nat) : Ascii (text.drop count) :=
  fun code member => ascii code (List.mem_of_mem_drop member)

theorem ascii_replicate {code : CodePoint} (isAscii : code.value < 0x80) (count : Nat) :
    Ascii (List.replicate count code) := by
  intro other member
  rw [List.eq_of_mem_replicate member]
  exact isAscii

theorem ascii_digitsFrom (base bound number : Nat) {tail : Text} (ascii : tail.Ascii) :
    (digitsFrom base bound number tail).Ascii := by
  have digit (value : Nat) : (CodePoint.ofDigit value).value < 0x80 := by
    unfold CodePoint.ofDigit
    split
    · dsimp only
      omega
    · split
      · dsimp only
        omega
      · decide
  induction bound generalizing number tail with
  | zero => exact ascii
  | succ bound induction =>
      rw [digitsFrom]
      split
      · exact .cons (digit _) ascii
      · exact induction _ (.cons (digit _) ascii)

theorem ascii_ofNat (number : Nat) : (ofNat number).Ascii := ascii_digitsFrom _ _ _ ascii_nil

theorem ascii_padded (base width number : Nat) : (padded base width number).Ascii :=
  (ascii_replicate (by decide) _).append (ascii_digitsFrom _ _ _ ascii_nil)

theorem ascii_ofInt (value : Int) : (ofInt value).Ascii := by
  cases value with
  | ofNat number => exact ascii_ofNat number
  | negSucc number => exact .cons (by decide) (ascii_ofNat _)

end Text

open Text

theorem Decimal.ascii_write (style : Style) (decimal : Decimal) : (write style decimal).Ascii := by
  have digits := ascii_ofNat decimal.digits
  have zeros (count : Nat) : Ascii (List.replicate count ('0' : CodePoint)) :=
    ascii_replicate (by decide) count
  have point : Ascii "." := by decide
  unfold write
  dsimp only
  split
  · split
    · exact (Ascii.append (by decide) (zeros _)).append digits
    · split
      · exact (digits.append (zeros _)).append (by decide)
      · exact ((digits.take _).append point).append (digits.drop _)
  · refine Ascii.append (((((digits.take 1).append ?_).append ?_)).append ?_) (ascii_padded _ _ _)
    · split
      · exact ascii_nil
      · exact point.append (digits.drop 1)
    · decide
    · split <;> decide

theorem Decimal.ascii_floatText (value : Float) : (floatText value).Ascii := by
  have signed {negative : Bool} {text : Text} (ascii : text.Ascii) :
      Ascii (if negative then "-" ++ text else text) := by
    split
    · exact Ascii.append (by decide) ascii
    · exact ascii
  unfold floatText
  dsimp only
  split
  · decide
  · exact signed (by decide)
  · refine signed ?_
    split
    · decide
    · exact ascii_write _ _

namespace Json

theorem ascii_encodeNumber (number : Number) : (encodeNumber number).Ascii := by
  cases number with
  | int value => exact ascii_ofInt value
  | float value =>
      rw [encodeNumber]
      split
      · decide
      · split <;> decide
      · exact Decimal.ascii_floatText value

theorem ascii_escape (code : CodePoint) : (escape code).Ascii := by
  have numeric (unit : Nat) : (numericEscape unit).Ascii :=
    Ascii.append (by decide) (ascii_padded _ _ _)
  unfold escape
  split
  case isTrue special => rcases special with rfl | rfl <;> decide
  split
  case isTrue => decide
  split
  case isTrue => decide
  split
  case isTrue => decide
  split
  case isTrue => decide
  split
  case isTrue => decide
  split
  case isTrue printable =>
    have bounds := CodePoint.within_iff.mp printable
    exact .cons (by omega) ascii_nil
  split
  case isTrue => exact numeric _
  case isFalse => exact (numeric _).append (numeric _)

theorem ascii_encodeString (value : Text) : (encodeString value).Ascii := by
  refine Ascii.append (Ascii.append (by decide) fun code member => ?_) (by decide)
  obtain ⟨original, _, isWritten⟩ := List.mem_flatMap.mp member
  exact ascii_escape original code isWritten

theorem ascii_lineAt (depth : Nat) : (lineAt depth).Ascii :=
  .cons (by decide) (ascii_replicate (by decide) _)

mutual

theorem ascii_encodeAt (depth : Nat) : (json : Json) → (encodeAt depth json).Ascii
  | null | bool true | bool false | array [] | object [] => by
      rw [encodeAt]
      decide
  | number value => ascii_encodeNumber value
  | string value => ascii_encodeString value
  | array (item :: items) =>
      ((((Ascii.append (by decide) (ascii_lineAt _)).append (ascii_encodeAt _ item)).append
        (ascii_encodeItems _ items)).append (ascii_lineAt _)).append (by decide)
  | object ((name, value) :: fields) =>
      ((((((Ascii.append (by decide) (ascii_lineAt _)).append (ascii_encodeString name)).append
        (by decide)).append (ascii_encodeAt _ value)).append (ascii_encodeFields _ fields)).append
          (ascii_lineAt _)).append (by decide)

theorem ascii_encodeItems (depth : Nat) : (items : List Json) → (encodeItems depth items).Ascii
  | [] => ascii_nil
  | item :: items =>
      ((Ascii.append (by decide) (ascii_lineAt _)).append (ascii_encodeAt _ item)).append
        (ascii_encodeItems _ items)

theorem ascii_encodeFields (depth : Nat) : (fields : List (Text × Json)) →
    (encodeFields depth fields).Ascii
  | [] => ascii_nil
  | (name, value) :: fields =>
      ((((Ascii.append (by decide) (ascii_lineAt _)).append (ascii_encodeString name)).append
        (by decide)).append (ascii_encodeAt _ value)).append (ascii_encodeFields _ fields)

end

end Json

end ConfigGraph
