import ConfigGraph.Proofs.Text.Utf8
import ConfigGraph.Uri.Percent
import Mathlib.Data.List.SplitBy

/-!
# Percent-encoding there and back

What `Percent.encode` writes is visible and in ASCII, and `Percent.decode` reads the text back whose
bytes have been written.
-/

namespace ConfigGraph.Percent

/-! ## What is written -/

/-- A code point that may stand in encoded bytes. -/
structure IsWritten (code : CodePoint) : Prop where
  visible : 0x20 < code.value
  ascii : code.value < 0x80
  /-- No query starts here. -/
  notQuery : code ≠ '?'
  /-- No fragment starts here. -/
  notFragment : code ≠ '#'

theorem isWritten_sign : IsWritten sign := by
  constructor <;> decide

/-- Letters and digits may stand in encoded bytes. -/
theorem isWritten_of_value {code : CodePoint} (inside : 0x30 ≤ code.value)
    (notMark : code.value ≠ 0x3f) (ascii : code.value < 0x80) : IsWritten code where
  visible := by omega
  ascii := ascii
  notQuery := by
    rintro rfl
    exact notMark rfl
  notFragment := by
    rintro rfl
    exact absurd inside (by decide)

theorem isWritten_capitalDigit {digit : Nat} (small : digit < 16) :
    IsWritten (capitalDigit digit) := by
  unfold capitalDigit
  split_ifs with isDecimal
  · have isDigit : (CodePoint.ofDigit digit).value = 0x30 + digit := by
      rw [CodePoint.ofDigit, dif_pos isDecimal]
    exact isWritten_of_value (by omega) (by omega) (by omega)
  · exact isWritten_of_value (by dsimp only; omega) (by dsimp only; omega) (by dsimp only; omega)

theorem isWritten_of_isPlain {byte : UInt8} (plain : isPlain byte = true) :
    IsWritten (codeOfByte byte) := by
  simp only [isPlain, CodePoint.isAsciiLetter, CodePoint.isAsciiDigit, Bool.or_eq_true,
    CodePoint.within_iff, beq_iff_eq] at plain
  rcases plain with ((((((capital | small) | digit) | mark) | mark) | mark) | mark) | mark
  · exact isWritten_of_value (by omega) (by omega) (by omega)
  · exact isWritten_of_value (by omega) (by omega) (by omega)
  · exact isWritten_of_value (by omega) (by omega) (by omega)
  all_goals
    rw [mark]
    constructor <;> decide

theorem isWritten_of_mem_encodeByte {byte : UInt8} {code : CodePoint}
    (member : code ∈ encodeByte byte) : IsWritten code := by
  have bound := byte.toNat_lt
  unfold encodeByte at member
  split_ifs at member with plain
  · rw [List.mem_singleton.mp member]
    exact isWritten_of_isPlain plain
  · simp only [List.mem_cons, List.not_mem_nil, or_false] at member
    rcases member with rfl | rfl | rfl
    · exact isWritten_sign
    · exact isWritten_capitalDigit (by omega)
    · exact isWritten_capitalDigit (by omega)

theorem isWritten_of_mem_encode {bytes : List UInt8} {code : CodePoint}
    (member : code ∈ encode bytes) : IsWritten code := by
  obtain ⟨byte, _, inByte⟩ := List.mem_flatMap.mp member
  exact isWritten_of_mem_encodeByte inByte

/-! ## Reading back -/

theorem bytes_cons_of_ne_sign {code : CodePoint} (other : code ≠ sign) (rest : Text) :
    bytes (code :: rest) = UInt8.ofNat code.value :: bytes rest := by
  match rest with
  | [] => rfl
  | [_] => rfl
  | _ :: _ :: _ => rw [bytes, if_neg other]

theorem hexDigit?_capitalDigit {digit : Nat} (small : digit < 16) :
    (capitalDigit digit).hexDigit? = some digit := by
  have all : ∀ digit : Fin 16, (capitalDigit digit).hexDigit? = some digit.val := by decide
  exact all ⟨digit, small⟩

theorem byteOfDigits?_capitalDigit (byte : UInt8) :
    byteOfDigits? (capitalDigit (byte.toNat / 16)) (capitalDigit (byte.toNat % 16)) =
      some byte := by
  have bound := byte.toNat_lt
  have whole : byte.toNat / 16 * 16 + byte.toNat % 16 = byte.toNat := by omega
  rw [byteOfDigits?, hexDigit?_capitalDigit (by omega), hexDigit?_capitalDigit (by omega)]
  simp only [Option.bind_eq_bind, Option.bind_some, whole, UInt8.ofNat_toNat]
  rfl

theorem sign_not_plain {byte : UInt8} (plain : isPlain byte = true) : codeOfByte byte ≠ sign := by
  intro isSign
  rw [isPlain, isSign] at plain
  exact absurd plain (by decide)

theorem bytes_encodeByte_append (byte : UInt8) (rest : Text) :
    bytes (encodeByte byte ++ rest) = byte :: bytes rest := by
  unfold encodeByte
  split_ifs with plain
  · rw [List.singleton_append, bytes_cons_of_ne_sign (sign_not_plain plain)]
    exact congrArg (· :: bytes rest) UInt8.ofNat_toNat
  · rw [List.cons_append, List.cons_append, List.singleton_append, bytes, if_pos rfl,
      byteOfDigits?_capitalDigit]

/-- Encoded bytes are read back. -/
theorem bytes_encode (written : List UInt8) : bytes (encode written) = written := by
  induction written with
  | nil => rfl
  | cons byte written induction =>
      rw [encode, List.flatMap_cons, bytes_encodeByte_append, ← encode, induction]

/-- A text in ASCII is decoded as a whole. -/
theorem decode_of_isAscii {text : Text} (ascii : ∀ code ∈ text, isAscii code = true) :
    decode text = Text.decodeLossy (bytes text) := by
  cases text with
  | nil => rfl
  | cons code rest =>
      have chained : (code :: rest).IsChain fun left right => isAscii left == isAscii right := by
        refine (List.pairwise_of_forall_mem_list fun left isLeft right isRight => ?_).isChain
        simp only [ascii left isLeft, ascii right isRight, beq_self_eq_true]
      rw [decode, List.splitBy_of_isChain (List.cons_ne_nil _ _) chained, List.flatMap_singleton,
        decodeRun, if_pos (List.all_eq_true.mpr ascii)]

/-- A text comes back from its encoded bytes. -/
theorem decode_encode {text : Text} (encodable : text.isEncodable = true) :
    decode (encode (text.flatMap Text.encodeCodePoint)) = text := by
  have ascii : ∀ code ∈ encode (text.flatMap Text.encodeCodePoint), isAscii code = true := by
    intro code member
    exact decide_eq_true (isWritten_of_mem_encode member).ascii
  rw [decode_of_isAscii ascii, bytes_encode, Text.decodeLossy_encode encodable]

end ConfigGraph.Percent
