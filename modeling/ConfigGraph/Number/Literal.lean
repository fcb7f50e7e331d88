import ConfigGraph.Number.Basic
import ConfigGraph.Text.DecimalDigit

/-!
# Number literals

Reads the literals that consist of integer digits, an optional fraction and an optional exponent.
A literal with a fraction or an exponent is a float, any other an integer.  Texts of integers have a
limited number of digits, whether they are read or written.
-/

namespace ConfigGraph.Number

/-- The most digits of an integer that is read from a text or written to one. -/
def digitLimit : Nat := 4300

/-- The number that a row of digits spells; code points that are no digits are passed over. -/
def ofDigits (digits : Text) : Nat :=
  digits.foldl (fun value code =>
    match code.decimalDigit? with
    | some digit => 10 * value + digit
    | none => value) 0

/-- The parts of a literal without its sign. -/
structure Literal where
  /-- The digits before the point. -/
  whole : Text
  /-- The digits behind the point, if there is one. -/
  fraction : Option Text
  /-- The sign and the digits of the exponent, if there is one. -/
  exponent : Option (Option CodePoint × Text)

namespace Literal

def isExponentMark (code : CodePoint) : Bool := code == 'e' || code == 'E'

def isSign (code : CodePoint) : Bool := code == '+' || code == '-'

/-- A point and at least one digit at the start of a text. -/
def fraction? (isDigit : CodePoint → Bool) : Text → Option Text
  | [] => none
  | point :: rest =>
      let digits := rest.takeWhile isDigit
      if point = '.' ∧ digits ≠ [] then some digits else none

/-- An exponent with at least one digit at the start of a text. -/
def exponent? (isDigit : CodePoint → Bool) : Text → Option (Option CodePoint × Text)
  | [] => none
  | mark :: rest =>
      let sign := rest.head?.filter isSign
      let digits := (rest.drop sign.toList.length).takeWhile isDigit
      if isExponentMark mark ∧ digits ≠ [] then some (sign, digits) else none

/-- How many code points a fraction takes. -/
def fractionLength (fraction : Option Text) : Nat :=
  (fraction.map fun digits => digits.length + 1).getD 0

def exponentLength (exponent : Option (Option CodePoint × Text)) : Nat :=
  (exponent.map fun (sign, digits) => 1 + sign.toList.length + digits.length).getD 0

def length (literal : Literal) : Nat :=
  literal.whole.length + fractionLength literal.fraction + exponentLength literal.exponent

/-- The longest literal whose integer digits are the given ones; the text continues behind them. -/
def after (isDigit : CodePoint → Bool) (whole rest : Text) : Literal :=
  let fraction := fraction? isDigit rest
  ⟨whole, fraction, exponent? isDigit (rest.drop (fractionLength fraction))⟩

/-- Whether a literal is an integer with more digits than are read. -/
def isTooLong (literal : Literal) : Bool :=
  literal.fraction.isNone && literal.exponent.isNone && decide (digitLimit < literal.whole.length)

/-- The number of a literal with a sign. -/
def value (negative : Bool) (literal : Literal) : Number :=
  if literal.fraction.isNone && literal.exponent.isNone then
    let size := Int.ofNat (ofDigits literal.whole)
    .int (if negative then -size else size)
  else
    let fraction := literal.fraction.getD []
    let power : Int :=
      match literal.exponent with
      | none => 0
      | some (sign, digits) =>
          if sign = some '-' then -Int.ofNat (ofDigits digits) else Int.ofNat (ofDigits digits)
    .float (Decimal.ofDecimal negative
      ⟨ofDigits (literal.whole ++ fraction), power - Int.ofNat fraction.length⟩)

end Literal

end ConfigGraph.Number
