import ConfigGraph.Number.Literal
import ConfigGraph.Text.LowerCase
import ConfigGraph.Text.Space
import ConfigGraph.Yaml.Tag

/-!
# The values of scalars

What the text of a scalar stands for under each of the common tags.  A tag can promise what the text
does not hold, so every reading may fail.
-/

namespace ConfigGraph.Yaml

/-- The words for the boolean values in lower case. -/
def boolMeanings : List (Text × Bool) :=
  [("yes", true), ("no", false), ("true", true), ("false", false), ("on", true), ("off", false)]

/-- A boolean value, whatever the case of its word. -/
def readBool (text : Text) : Except ScalarFault Bool :=
  let lowered := text.toLower
  match boolMeanings.find? fun entry => entry.1 = lowered with
  | some (_, value) => .ok value
  | none => .error (.notBoolean lowered)

/-! ## Integers -/

/-- The digits behind the mark of a base, if the mark is there. -/
def behindBaseMark (base : Nat) (text : Text) : Text :=
  let marks : List (Nat × Text) := [(2, "0b"), (8, "0o"), (16, "0x")]
  match marks.find? fun mark => mark.1 = base && text.toAsciiLower.startsWith mark.2 with
  | some mark => text.drop mark.2.length
  | none => text

/-- The number that digits of a base spell, if there is a digit and nothing else. -/
def natOfDigits? (base : Nat) (digits : Text) : Option Nat :=
  if digits = [] then none
  else
    digits.foldlM (fun number code => do
      let digit ← code.hexDigit?
      if digit < base then some (number * base + digit) else none) 0

/-- The integer that a text spells in a base, with a sign, the mark of the base, and blanks around
it.  In decimal the number of digits is limited, also in front of what is no digit. -/
def intOfText (base : Nat) (text : Text) : Except ScalarFault Int :=
  let ascii := text.asciiDigits
  let digits := (Tag.unsigned ascii).takeWhile CodePoint.isAsciiDigit
  if base = 10 ∧ Number.digitLimit < digits.length then .error (.tooManyDigits digits.length)
  else
    match natOfDigits? base (behindBaseMark base (Tag.unsigned ascii)) with
    | some size => .ok (if ascii.head? = some '-' then -Int.ofNat size else Int.ofNat size)
    | none => .error (.notInteger text base)

/-- The integer that the parts of a sexagesimal number stand for. -/
def sexagesimalInt (parts : List Text) : Except ScalarFault Int :=
  parts.foldlM (fun number part => (intOfText 10 part).map fun digit => number * 60 + digit) 0

/-- Whether a text starts with a minus sign, and the text behind its sign; the text must not be
empty. -/
def splitSign (text : Text) : Except ScalarFault (Bool × Text) :=
  if text = [] then .error .emptyNumber else .ok (text.head? = some '-', Tag.unsigned text)

def withoutUnderscores (text : Text) : Text := text.filter fun code => code != '_'

def readInt (text : Text) : Except ScalarFault Int := do
  let (negative, digits) ← splitSign (withoutUnderscores text)
  let size ←
    if digits.startsWith "0b" then intOfText 2 (digits.drop 2)
    else if digits.startsWith "0x" then intOfText 16 (digits.drop 2)
    else if digits = Text.ofString "0" then .ok 0
    else if digits = [] then .error .emptyNumber
    else if digits.startsWith "0" then intOfText 8 digits
    else if digits.contains ':' then sexagesimalInt (Text.splitOn ':' digits)
    else intOfText 10 digits
  return if negative then -size else size

/-! ## Floats -/

/-- The words for floats that no digits spell. -/
def floatWords : List (Text × Float) :=
  [("inf", Binary64.infinity false), ("infinity", Binary64.infinity false), ("nan", Binary64.nan)]

/-- The float that digits spell, with a point and an exponent that may both be missing. -/
def floatOfDigits? (negative : Bool) (text : Text) : Option Float :=
  let whole := text.takeWhile CodePoint.isAsciiDigit
  let rest := text.drop whole.length
  let point := if rest.head? = some '.' then 1 else 0
  let fraction := (rest.drop point).takeWhile CodePoint.isAsciiDigit
  let fraction := if point = 0 then [] else fraction
  let behind := rest.drop (point + fraction.length)
  let exponent := Number.Literal.exponent? CodePoint.isAsciiDigit behind
  if whole ++ fraction = [] ∨ Number.Literal.exponentLength exponent ≠ behind.length then none
  else
    match Number.Literal.value negative ⟨whole, some fraction, exponent⟩ with
    | .float value => some value
    | .int _ => none

/-- The float that a text spells, with a sign and blanks around it. -/
def floatOfText (text : Text) : Except ScalarFault Float :=
  let ascii := text.asciiDigits
  let negative := ascii.head? = some '-'
  let unsigned := Tag.unsigned ascii
  match floatWords.find? fun word => word.1 = unsigned.toAsciiLower with
  | some (_, value) => .ok (if negative then -value else value)
  | none =>
      match floatOfDigits? negative unsigned with
      | some value => .ok value
      | none => .error (.notFloat text)

/-- The float that the parts of a sexagesimal number stand for, the last part first.  The weight of
the first of them is given. -/
def sexagesimalFrom (weight : Int) (sum : Float) : List Float → Except ScalarFault Float
  | [] => .ok sum
  | digit :: digits =>
      match Number.floatOfInt weight with
      | .error _ => .error .integerTooLarge
      | .ok factor => sexagesimalFrom (weight * 60) (sum + digit * factor) digits

def readFloat (text : Text) : Except ScalarFault Float := do
  let (negative, digits) ← splitSign (withoutUnderscores text).toLower
  let sign (value : Float) : Float := if negative then -value else value
  if digits = Text.ofString ".inf" then return sign (Binary64.infinity false)
  if digits.contains ':' then
    let parts ← (Text.splitOn ':' digits).mapM floatOfText
    return sign (← sexagesimalFrom 1 0 parts.reverse)
  return sign (← floatOfText digits)

/-- Whether a text is the word for an undefined float, which all YAML documents share. -/
def isSharedNaN (text : Text) : Bool :=
  let lowered := (withoutUnderscores text).toLower
  Tag.unsigned lowered == Text.ofString ".nan"

end ConfigGraph.Yaml
