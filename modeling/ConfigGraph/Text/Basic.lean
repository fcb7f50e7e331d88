/-!
# Text as a sequence of code points

Documents, paths and string values are lists of Unicode code points.  A surrogate code point may
stand on its own in a text, because string literals can spell one, so the type is wider than
`String`; `Text.ofString` embeds the ordinary strings.
-/

namespace ConfigGraph

/-- A Unicode code point; surrogates are included. -/
structure CodePoint where
  value : Nat
  /-- Code points end at U+10FFFF. -/
  value_lt : value < 0x110000
  deriving DecidableEq

namespace CodePoint

instance : Inhabited CodePoint := ⟨⟨0, by decide⟩⟩

instance : Ord CodePoint := ⟨fun left right => compare left.value right.value⟩

def ofChar (character : Char) : CodePoint :=
  ⟨character.toNat, by
    rcases character.valid with low | high
    · have : character.toNat < 0xd800 := low
      omega
    · exact high.2⟩

instance : Coe Char CodePoint := ⟨ofChar⟩

/-- The code point with a given number, if there is one. -/
def ofNat? (value : Nat) : Option CodePoint :=
  if h : value < 0x110000 then some ⟨value, h⟩ else none

/-- Whether the number of the code point lies in a closed interval. -/
def within (code : CodePoint) (low high : Nat) : Bool :=
  low ≤ code.value && code.value ≤ high

/-- A high surrogate is the first half of a UTF-16 pair. -/
def isHighSurrogate (code : CodePoint) : Bool := code.within 0xd800 0xdbff

/-- A low surrogate is the second half of a UTF-16 pair. -/
def isLowSurrogate (code : CodePoint) : Bool := code.within 0xdc00 0xdfff

/-- Surrogates are the code points that no encoded text can hold. -/
def isSurrogate (code : CodePoint) : Bool := code.within 0xd800 0xdfff

def isAsciiLetter (code : CodePoint) : Bool := code.within 0x41 0x5a || code.within 0x61 0x7a

def isAsciiDigit (code : CodePoint) : Bool := code.within 0x30 0x39

/-- The lower-case form of an ASCII capital; all else is unchanged. -/
def toAsciiLower (code : CodePoint) : CodePoint :=
  if h : code.value ≤ 0x5a ∧ 0x41 ≤ code.value then ⟨code.value + 32, by omega⟩ else code

/-- The value of a hexadecimal digit of either case. -/
def hexDigit? (code : CodePoint) : Option Nat :=
  if code.within 0x30 0x39 then some (code.value - 0x30)
  else if code.within 0x61 0x66 then some (code.value - 0x61 + 10)
  else if code.within 0x41 0x46 then some (code.value - 0x41 + 10)
  else none

/-- The lower-case digit that stands for a number below thirty-six. -/
def ofDigit (digit : Nat) : CodePoint :=
  if h : digit < 10 then ⟨0x30 + digit, by omega⟩
  else if h : digit < 36 then ⟨0x61 + (digit - 10), by omega⟩
  else '?'

end CodePoint

/-- A text is a list of code points. -/
abbrev Text := List CodePoint

namespace Text

/-- The code points of an ordinary string. -/
def ofString (string : String) : Text := string.toList.map CodePoint.ofChar

instance : Coe String Text := ⟨ofString⟩

/-- Digits of a number in a base, most significant first, after the given tail.  The first
argument bounds the number of digits. -/
def digitsFrom (base : Nat) : Nat → Nat → Text → Text
  | 0, _, tail => tail
  | bound + 1, number, tail =>
      let extended := CodePoint.ofDigit (number % base) :: tail
      if number < base then extended else digitsFrom base bound (number / base) extended

/-- A natural number in a base between two and thirty-six, without leading zeros. -/
def ofNatBase (base number : Nat) : Text := digitsFrom base (number.log2 + 1) number []

def ofNat (number : Nat) : Text := ofNatBase 10 number

/-- An integer in decimal, with a minus sign when it is negative. -/
def ofInt : Int → Text
  | .ofNat number => ofNat number
  | .negSucc number => ('-' : CodePoint) :: ofNat (number + 1)

/-- A number in a base, padded on the left with zeros to a width. -/
def padded (base width number : Nat) : Text :=
  let digits := ofNatBase base number
  List.replicate (width - digits.length) ('0' : CodePoint) ++ digits

def startsWith (text initial : Text) : Bool := initial.isPrefixOf text

def endsWith (text final : Text) : Bool := final.isSuffixOf text

/-- The text with its ASCII capitals made small. -/
def toAsciiLower (text : Text) : Text := text.map CodePoint.toAsciiLower

/-- The pieces of a text between the occurrences of a separator; there is one more piece than
there are separators. -/
def splitOn (separator : CodePoint) : Text → List Text
  | [] => [[]]
  | code :: rest =>
      if code = separator then [] :: splitOn separator rest
      else match splitOn separator rest with
        | [] => [[code]]
        | piece :: pieces => (code :: piece) :: pieces

/-- Texts joined with a separator between neighbours. -/
def join (separator : Text) (texts : List Text) : Text := List.intercalate separator texts

/-- Lexicographic order by code point. -/
def before : Text → Text → Bool
  | [], [] => false
  | [], _ :: _ => true
  | _ :: _, [] => false
  | left :: lefts, right :: rights =>
      left.value < right.value || (left.value == right.value && before lefts rights)

/-- Whether every code point belongs to an encodable text. -/
def isEncodable (text : Text) : Bool := text.all fun code => !code.isSurrogate

/-- The ordinary string with the same characters; a surrogate, which has no character, becomes
the replacement character. -/
def toString (text : Text) : String :=
  String.ofList (text.map fun code =>
    if code.isSurrogate then Char.ofNat 0xfffd else Char.ofNat code.value)

end Text

end ConfigGraph
