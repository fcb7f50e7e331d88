import ConfigGraph.Text.Utf8

/-!
# Percent-encoding

A URI writes a byte that it cannot hold as a percent sign and two hexadecimal digits.
`Percent.encode` writes bytes so, and `Percent.decode` reads the bytes between characters outside of
ASCII as UTF-8.
-/

namespace ConfigGraph.Percent

/-- The sign in front of the digits of a byte. -/
def sign : CodePoint := '%'

/-- A byte as a code point of its own. -/
def codeOfByte (byte : UInt8) : CodePoint :=
  ⟨byte.toNat, Nat.lt_trans byte.toNat_lt (by decide)⟩

/-- Bytes that stand for themselves: letters, digits, the slash and four marks. -/
def isPlain (byte : UInt8) : Bool :=
  let code := codeOfByte byte
  code.isAsciiLetter || code.isAsciiDigit || code == ('/' : CodePoint) ||
    code == ('_' : CodePoint) || code == ('.' : CodePoint) || code == ('-' : CodePoint) ||
    code == ('~' : CodePoint)

/-- The capital hexadecimal digit of a number below sixteen. -/
def capitalDigit (digit : Nat) : CodePoint :=
  if digit < 10 then .ofDigit digit
  else if h : digit < 16 then ⟨0x41 + (digit - 10), by omega⟩
  else '?'

def encodeByte (byte : UInt8) : Text :=
  if isPlain byte then [codeOfByte byte]
  else [sign, capitalDigit (byte.toNat / 16), capitalDigit (byte.toNat % 16)]

def encode (bytes : List UInt8) : Text := bytes.flatMap encodeByte

/-- The byte that two hexadecimal digits name. -/
def byteOfDigits? (high low : CodePoint) : Option UInt8 := do
  let high ← high.hexDigit?
  let low ← low.hexDigit?
  return UInt8.ofNat (high * 16 + low)

/-- The bytes of an ASCII text.  A percent sign without two digits behind it stands for itself. -/
def bytes : Text → List UInt8
  | code :: high :: low :: rest =>
      if code = sign then
        match byteOfDigits? high low with
        | some byte => byte :: bytes rest
        | none => UInt8.ofNat code.value :: bytes (high :: low :: rest)
      else UInt8.ofNat code.value :: bytes (high :: low :: rest)
  | code :: rest => UInt8.ofNat code.value :: bytes rest
  | [] => []

def isAscii (code : CodePoint) : Bool := code.value < 0x80

/-- A text all of whose code points are in ASCII, or none, without its percent signs. -/
def decodeRun (run : Text) : Text :=
  if run.all isAscii then Text.decodeLossy (bytes run) else run

/-- A text without its percent signs. -/
def decode (text : Text) : Text :=
  (text.splitBy fun left right => isAscii left == isAscii right).flatMap decodeRun

end ConfigGraph.Percent
