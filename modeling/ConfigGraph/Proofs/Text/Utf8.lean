import ConfigGraph.Text.Utf8
import ConfigGraph.Proofs.Text.Row

/-!
# UTF-8 there and back

A text without surrogates is read back from its bytes.  A byte order mark at its start would be lost.
-/

namespace ConfigGraph

theorem CodePoint.ofNat?_value (code : CodePoint) : ofNat? code.value = some code := by
  rw [ofNat?, dif_pos code.value_lt]

theorem CodePoint.isSurrogate_eq_false_iff {code : CodePoint} :
    code.isSurrogate = false ↔ code.value < 0xd800 ∨ 0xdfff < code.value := by
  rw [← Bool.not_eq_true, isSurrogate, within_iff]
  omega

namespace Text

/-! ## One code point -/

theorem toNat_byte {value : Nat} (small : value < 0x100) : (UInt8.ofNat value).toNat = value :=
  UInt8.toNat_ofNat_of_lt' small

theorem continuation?_ofNat {bits : Nat} (small : bits < 0x40) :
    continuation? (UInt8.ofNat (0x80 + bits)) = some bits := by
  rw [continuation?, toNat_byte (by omega), if_pos (by omega), Nat.add_sub_cancel_left]

theorem scalar?_value {code : CodePoint} {least : Nat} (scalar : code.isSurrogate = false)
    (atLeast : least ≤ code.value) : scalar? code.value least = some code := by
  rw [CodePoint.isSurrogate_eq_false_iff] at scalar
  have good : (code.value < least || (0xd800 ≤ code.value && code.value ≤ 0xdfff)) = false := by
    rw [← Bool.not_eq_true]
    simp only [Bool.or_eq_true, Bool.and_eq_true, decide_eq_true_eq]
    omega
  rw [scalar?, good]
  exact code.ofNat?_value

/-- The first code point is read back from its bytes, whatever comes behind them. -/
theorem decodeOne?_encodeCodePoint {code : CodePoint} (scalar : code.isSurrogate = false)
    (rest : List UInt8) :
    decodeOne? (encodeCodePoint code ++ rest) = some (code, (encodeCodePoint code).length) := by
  have bound := code.value_lt
  unfold encodeCodePoint
  by_cases one : code.value < 0x80
  · simp only [if_pos one, List.cons_append, decodeOne?]
    rw [toNat_byte (by omega), if_pos one, code.ofNat?_value]
    rfl
  by_cases two : code.value < 0x800
  · have joined : (0xc0 + code.value / 0x40 - 0xc0) * 0x40 + code.value % 0x40 = code.value := by
      omega
    simp only [if_neg one, if_pos two, List.cons_append, decodeOne?]
    rw [toNat_byte (by omega), if_neg (by omega), if_pos (by omega),
      continuation?_ofNat (by omega)]
    simp only [Option.bind_eq_bind, Option.bind_some, joined,
      scalar?_value scalar (show 0x80 ≤ code.value by omega)]
    rfl
  by_cases three : code.value < 0x10000
  · have joined : ((0xe0 + code.value / 0x1000 - 0xe0) * 0x40 + code.value / 0x40 % 0x40) * 0x40 +
        code.value % 0x40 = code.value := by
      omega
    simp only [if_neg one, if_neg two, if_pos three, List.cons_append, decodeOne?]
    rw [toNat_byte (by omega), if_neg (by omega), if_neg (by omega),
      if_pos (by omega), continuation?_ofNat (by omega), continuation?_ofNat (by omega)]
    simp only [Option.bind_eq_bind, Option.bind_some, joined,
      scalar?_value scalar (show 0x800 ≤ code.value by omega)]
    rfl
  · have joined : (((0xf0 + code.value / 0x40000 - 0xf0) * 0x40 + code.value / 0x1000 % 0x40) *
        0x40 + code.value / 0x40 % 0x40) * 0x40 + code.value % 0x40 = code.value := by
      omega
    simp only [if_neg one, if_neg two, if_neg three, List.cons_append, decodeOne?]
    rw [toNat_byte (by omega), if_neg (by omega), if_neg (by omega),
      if_neg (by omega), if_pos (by omega), continuation?_ofNat (by omega),
      continuation?_ofNat (by omega), continuation?_ofNat (by omega)]
    simp only [Option.bind_eq_bind, Option.bind_some, joined,
      scalar?_value scalar (show 0x10000 ≤ code.value by omega)]
    rfl

/-! ## Texts -/

theorem length_encodeCodePoint_pos (code : CodePoint) : 0 < (encodeCodePoint code).length := by
  unfold encodeCodePoint
  dsimp only
  split_ifs <;> exact Nat.succ_pos _

theorem isEncodable_cons {code : CodePoint} {text : Text} :
    isEncodable (code :: text) = true ↔ code.isSurrogate = false ∧ isEncodable text = true := by
  simp [isEncodable]

theorem decodeWithin_encode {text : Text} (encodable : text.isEncodable = true) {bound : Nat}
    (enough : text.length ≤ bound) :
    decodeWithin bound (text.flatMap encodeCodePoint) = some text := by
  induction text generalizing bound with
  | nil => cases bound <;> rfl
  | cons code text induction =>
      obtain ⟨scalar, others⟩ := isEncodable_cons.mp encodable
      have decoded := decodeOne?_encodeCodePoint scalar (List.flatMap encodeCodePoint text)
      have behind : (encodeCodePoint code ++ List.flatMap encodeCodePoint text).drop
          (encodeCodePoint code).length = List.flatMap encodeCodePoint text := List.drop_left
      rw [List.flatMap_cons]
      cases bound with
      | zero => cases enough
      | succ bound =>
          rw [decodeWithin, decoded]
          · simp only [Option.bind_eq_bind, Option.bind_some, behind,
              induction others (Nat.le_of_succ_le_succ enough)]
            rfl
          · intro nothing
            rw [nothing] at decoded
            cases decoded

theorem length_le_encode (text : Text) :
    text.length ≤ (text.flatMap encodeCodePoint).length := by
  induction text with
  | nil => exact Nat.zero_le _
  | cons code text induction =>
      have positive := length_encodeCodePoint_pos code
      rw [List.flatMap_cons, List.length_append, List.length_cons]
      omega

theorem decodeLossyWithin_encode {text : Text} (encodable : text.isEncodable = true) {bound : Nat}
    (enough : text.length ≤ bound) :
    decodeLossyWithin bound (text.flatMap encodeCodePoint) = text := by
  induction text generalizing bound with
  | nil => cases bound <;> rfl
  | cons code text induction =>
      obtain ⟨scalar, others⟩ := isEncodable_cons.mp encodable
      have decoded := decodeOne?_encodeCodePoint scalar (List.flatMap encodeCodePoint text)
      have nonempty := List.ne_nil_of_length_pos (length_encodeCodePoint_pos code)
      obtain ⟨first, rest, bytes⟩ := List.exists_cons_of_ne_nil nonempty
      rw [List.flatMap_cons]
      rw [bytes, List.cons_append] at decoded ⊢
      cases bound with
      | zero => cases enough
      | succ bound =>
          have behind : (rest ++ List.flatMap encodeCodePoint text).drop rest.length =
              List.flatMap encodeCodePoint text := List.drop_left
          simp only [decodeLossyWithin, decoded, List.length_cons, Nat.add_sub_cancel, behind,
            induction others (Nat.le_of_succ_le_succ enough)]

/-- No byte of an encoded text is malformed. -/
theorem decodeLossy_encode {text : Text} (encodable : text.isEncodable = true) :
    decodeLossy (text.flatMap encodeCodePoint) = text :=
  decodeLossyWithin_encode encodable (length_le_encode text)

/-! ## Bytes that stand for themselves -/

theorem escapedByte?_eq_none {code : CodePoint} (scalar : code.isSurrogate = false) :
    escapedByte? code = none := by
  rw [CodePoint.isSurrogate_eq_false_iff] at scalar
  rw [escapedByte?, if_neg]
  rw [CodePoint.within_iff]
  omega

theorem encodeEscapedFrom_of_isEncodable {text : Text} (encodable : text.isEncodable = true)
    (index : Nat) : encodeEscapedFrom index text = .ok (text.flatMap encodeCodePoint) := by
  induction text generalizing index with
  | nil => rfl
  | cons code text induction =>
      obtain ⟨scalar, others⟩ := isEncodable_cons.mp encodable
      simp only [encodeEscapedFrom, escapedByte?_eq_none scalar, scalar, induction others]
      rfl

/-- In a text without surrogates, none stands for a byte. -/
theorem encodeEscaped_of_isEncodable {text : Text} (encodable : text.isEncodable = true) :
    encodeEscaped text = .ok (text.flatMap encodeCodePoint) :=
  encodeEscapedFrom_of_isEncodable encodable 0

/-! ## Byte order marks -/

/-- The code point that marks the order of bytes at the start of a file. -/
def byteOrderMark : CodePoint := '\ufeff'

theorem encode_byteOrderMark : encodeCodePoint byteOrderMark = [0xef, 0xbb, 0xbf] := by
  decide

theorem decodeMarked?_encode {text : Text} (encodable : text.isEncodable = true)
    (unmarked : text.head? ≠ some byteOrderMark) :
    decodeMarked? (text.flatMap encodeCodePoint) = some text := by
  unfold decodeMarked?
  split
  case h_1 rest isMarked =>
    exfalso
    cases text with
    | nil => cases isMarked
    | cons code text =>
        obtain ⟨scalar, _⟩ := isEncodable_cons.mp encodable
        have decoded := decodeOne?_encodeCodePoint scalar (List.flatMap encodeCodePoint text)
        have isScalar : byteOrderMark.isSurrogate = false := by decide
        have marked := decodeOne?_encodeCodePoint isScalar rest
        rw [encode_byteOrderMark] at marked
        rw [List.flatMap_cons] at isMarked
        rw [isMarked] at decoded
        rw [List.cons_append, List.cons_append, List.singleton_append, decoded] at marked
        cases marked
        exact unmarked rfl
  case h_2 => exact decodeWithin_encode encodable (length_le_encode text)

end Text

end ConfigGraph
