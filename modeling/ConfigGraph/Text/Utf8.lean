import ConfigGraph.Text.Basic

/-!
# UTF-8

Encoding and strict decoding of texts.  Decoding accepts shortest forms of scalar values only, so
overlong forms, encoded surrogates and cut sequences are refused; `decodeMarked?` also drops one
byte order mark at the start.  `decodeFault?` finds the bytes that make a sequence malformed, and
`decodeLossy` puts a replacement character into their place.
-/

namespace ConfigGraph.Text

/-- The bytes of one code point.  Surrogates are written by the same scheme. -/
def encodeCodePoint (code : CodePoint) : List UInt8 :=
  let n := code.value
  let byte (value : Nat) : UInt8 := UInt8.ofNat value
  if n < 0x80 then [byte n]
  else if n < 0x800 then [byte (0xc0 + n / 0x40), byte (0x80 + n % 0x40)]
  else if n < 0x10000 then
    [byte (0xe0 + n / 0x1000), byte (0x80 + n / 0x40 % 0x40), byte (0x80 + n % 0x40)]
  else
    [byte (0xf0 + n / 0x40000), byte (0x80 + n / 0x1000 % 0x40), byte (0x80 + n / 0x40 % 0x40),
      byte (0x80 + n % 0x40)]

/-- The six payload bits of a continuation byte. -/
def continuation? (byte : UInt8) : Option Nat :=
  if 0x80 ≤ byte.toNat ∧ byte.toNat < 0xc0 then some (byte.toNat - 0x80) else none

/-- A decoded code point is acceptable when it needed that many bytes and is no surrogate. -/
def scalar? (value least : Nat) : Option CodePoint :=
  if value < least || (0xd800 ≤ value && value ≤ 0xdfff) then none else CodePoint.ofNat? value

/-- The code point that starts a byte sequence, with the number of bytes it takes. -/
def decodeOne? : List UInt8 → Option (CodePoint × Nat)
  | [] => none
  | first :: rest =>
      let lead := first.toNat
      if lead < 0x80 then (CodePoint.ofNat? lead).map (·, 1)
      else if 0xc2 ≤ lead ∧ lead < 0xe0 then
        match rest with
        | second :: _ => do
            let b ← continuation? second
            let code ← scalar? ((lead - 0xc0) * 0x40 + b) 0x80
            return (code, 2)
        | _ => none
      else if 0xe0 ≤ lead ∧ lead < 0xf0 then
        match rest with
        | second :: third :: _ => do
            let b ← continuation? second
            let c ← continuation? third
            let code ← scalar? (((lead - 0xe0) * 0x40 + b) * 0x40 + c) 0x800
            return (code, 3)
        | _ => none
      else if 0xf0 ≤ lead ∧ lead < 0xf5 then
        match rest with
        | second :: third :: fourth :: _ => do
            let b ← continuation? second
            let c ← continuation? third
            let d ← continuation? fourth
            let code ← scalar? ((((lead - 0xf0) * 0x40 + b) * 0x40 + c) * 0x40 + d) 0x10000
            return (code, 4)
        | _ => none
      else none

/-- Decodes at most as many code points as the first argument says. -/
def decodeWithin : Nat → List UInt8 → Option Text
  | _, [] => some []
  | 0, _ :: _ => none
  | bound + 1, bytes => do
      let (code, width) ← decodeOne? bytes
      let rest ← decodeWithin bound (bytes.drop width)
      return code :: rest

/-- The text that a byte sequence encodes, or nothing when it is malformed. -/
def decode? (bytes : List UInt8) : Option Text := decodeWithin bytes.length bytes

/-- As `decode?`, but a byte order mark at the very start is dropped. -/
def decodeMarked? (bytes : List UInt8) : Option Text :=
  match bytes with
  | 0xef :: 0xbb :: 0xbf :: rest => decode? rest
  | _ => decode? bytes

/-! ## Malformed sequences -/

/-- What is wrong with bytes that encode no text. -/
inductive Malformation where
  | invalidStart
  | invalidContinuation
  | unexpectedEnd
  deriving DecidableEq

def Malformation.words : Malformation → Text
  | .invalidStart => "invalid start byte"
  | .invalidContinuation => "invalid continuation byte"
  | .unexpectedEnd => "unexpected end of data"

/-- The bytes from one index to another that encode no code point, and the first of them. -/
structure DecodeFault where
  start : Nat
  stop : Nat
  first : UInt8
  malformation : Malformation
  deriving DecidableEq

def DecodeFault.message (fault : DecodeFault) : Text :=
  let place : Text :=
    if fault.stop = fault.start + 1 then
      "byte 0x" ++ padded 16 2 fault.first.toNat ++ " in position " ++ ofNat fault.start
    else "bytes in position " ++ ofNat fault.start ++ "-" ++ ofNat (fault.stop - 1)
  "'utf-8' codec can't decode " ++ place ++ ": " ++ fault.malformation.words

/-- The intervals for the bytes behind a leading byte, or nothing if no sequence starts with it. -/
def followers? (lead : Nat) : Option (List (Nat × Nat)) :=
  let any := (0x80, 0xbf)
  if lead < 0x80 then some []
  else if lead < 0xc2 then none
  else if lead < 0xe0 then some [any]
  else if lead = 0xe0 then some [(0xa0, 0xbf), any]
  else if lead = 0xed then some [(0x80, 0x9f), any]
  else if lead < 0xf0 then some [any, any]
  else if lead = 0xf0 then some [(0x90, 0xbf), any, any]
  else if lead < 0xf4 then some [any, any, any]
  else if lead = 0xf4 then some [(0x80, 0x8f), any, any]
  else none

/-- How many bytes fit their intervals, and what is wrong behind them. -/
def misfit? : List (Nat × Nat) → List UInt8 → Option (Nat × Malformation)
  | [], _ => none
  | _ :: _, [] => some (0, .unexpectedEnd)
  | (low, high) :: intervals, byte :: bytes =>
      if low ≤ byte.toNat ∧ byte.toNat ≤ high then
        (misfit? intervals bytes).map fun (fitting, malformation) => (fitting + 1, malformation)
      else some (0, .invalidContinuation)

/-- The first fault in bytes that start at an index.  The number of bytes to pass over first is
given, too. -/
def decodeFaultFrom? : Nat → Nat → List UInt8 → Option DecodeFault
  | _, _, [] => none
  | index, skipped + 1, _ :: bytes => decodeFaultFrom? (index + 1) skipped bytes
  | index, 0, first :: bytes =>
      match followers? first.toNat with
      | none => some ⟨index, index + 1, first, .invalidStart⟩
      | some intervals =>
          match misfit? intervals bytes with
          | some (fitting, malformation) => some ⟨index, index + 1 + fitting, first, malformation⟩
          | none => decodeFaultFrom? (index + 1) intervals.length bytes

/-- The first fault in bytes, if they encode no text. -/
def decodeFault? (bytes : List UInt8) : Option DecodeFault := decodeFaultFrom? 0 0 bytes

/-- The code point that stands for bytes which encode none. -/
def replacement : CodePoint := ⟨0xfffd, by decide⟩

/-- The number of bytes behind a malformed start that belong to the malformed sequence. -/
def malformedTail (first : UInt8) (rest : List UInt8) : Nat :=
  ((followers? first.toNat).bind fun intervals => misfit? intervals rest).elim 0 (·.1)

/-- Decodes at most as many sequences as the first argument says, malformed ones included. -/
def decodeLossyWithin : Nat → List UInt8 → Text
  | _, [] => []
  | 0, _ :: _ => []
  | bound + 1, first :: rest =>
      match decodeOne? (first :: rest) with
      | some (code, width) => code :: decodeLossyWithin bound (rest.drop (width - 1))
      | none => replacement :: decodeLossyWithin bound (rest.drop (malformedTail first rest))

/-- The text that a byte sequence encodes, with a replacement character for every malformed
sequence. -/
def decodeLossy (bytes : List UInt8) : Text := decodeLossyWithin bytes.length bytes

/-! ## Bytes that stand for themselves -/

/-- A run of surrogates that stand for no bytes: the index of the first, the index behind the last,
and the first of them. -/
structure EncodeFault where
  start : Nat
  stop : Nat
  first : CodePoint
  deriving DecidableEq

def EncodeFault.message (fault : EncodeFault) : Text :=
  let place : Text :=
    if fault.stop = fault.start + 1 then
      "character '\\u" ++ padded 16 4 fault.first.value ++ "' in position " ++ ofNat fault.start
    else "characters in position " ++ ofNat fault.start ++ "-" ++ ofNat (fault.stop - 1)
  "'utf-8' codec can't encode " ++ place ++ ": surrogates not allowed"

/-- The byte that a surrogate stands for: the upper half of the bytes has surrogates of its own. -/
def escapedByte? (code : CodePoint) : Option UInt8 :=
  if code.within 0xdc80 0xdcff then some (UInt8.ofNat (code.value - 0xdc00)) else none

/-- The bytes of a text that starts at an index, in which surrogates may stand for bytes. -/
def encodeEscapedFrom : Nat → Text → Except EncodeFault (List UInt8)
  | _, [] => .ok []
  | index, code :: rest =>
      match escapedByte? code with
      | some byte => (encodeEscapedFrom (index + 1) rest).map (byte :: ·)
      | none =>
          if code.isSurrogate then
            .error ⟨index, index + 1 + (rest.takeWhile CodePoint.isSurrogate).length, code⟩
          else (encodeEscapedFrom (index + 1) rest).map (encodeCodePoint code ++ ·)

/-- The bytes of a text in which surrogates may stand for bytes. -/
def encodeEscaped (text : Text) : Except EncodeFault (List UInt8) := encodeEscapedFrom 0 text

end ConfigGraph.Text
