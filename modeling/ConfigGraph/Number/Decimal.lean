import ConfigGraph.Number.Binary64
import ConfigGraph.Text.Basic

/-!
# Decimal texts of floats

`shortest` finds the decimal with the fewest digits that rounds to a given float, and of those the
nearest one; `floatText` writes it down and `ofDecimal` reads decimals back.
-/

namespace ConfigGraph

/-- A decimal fraction `digits * 10 ^ exponent`. -/
structure Decimal where
  digits : Nat
  exponent : Int
  deriving DecidableEq, Inhabited

namespace Decimal

/-- The number of decimal digits of a number; zero has one. -/
def digitCount (number : Nat) : Nat := (Text.ofNat number).length

/-- The exponent `e` with `10 ^ (e - 1) ≤ numerator / denominator < 10 ^ e`, for a positive
fraction that is at least one or no negative power of ten. -/
def magnitude (numerator denominator : Nat) : Int :=
  if denominator ≤ numerator then Int.ofNat (digitCount (numerator / denominator))
  else 1 - Int.ofNat (digitCount (denominator / numerator))

/-- Compares `left * 10 ^ power` with `right * 2 ^ exponent`. -/
def compareScaled (left : Nat) (power : Int) (right : Nat) (exponent : Int) : Ordering :=
  compare (left * Nat.pow 10 power.toNat * Nat.pow 2 (-exponent).toNat)
    (right * Nat.pow 2 exponent.toNat * Nat.pow 10 (-power).toNat)

/-- Whether a decimal rounds to the float `mantissa * 2 ^ exponent`.  The reals that do so reach
half way to the two neighbours, and the ends belong to them when the mantissa is even; below a
power of two the neighbour is only half as far away. -/
def roundsTo (mantissa : Nat) (exponent : Int) (candidate : Decimal) : Bool :=
  let narrow := mantissa == Nat.pow 2 52 && exponent != -1074
  let low := 4 * mantissa - if narrow then 1 else 2
  let high := 4 * mantissa + 2
  let fromLow := compareScaled candidate.digits candidate.exponent low (exponent - 2)
  let toHigh := compareScaled candidate.digits candidate.exponent high (exponent - 2)
  if mantissa % 2 == 0 then fromLow != .lt && toHigh != .gt
  else fromLow == .gt && toHigh == .lt

/-- The better of the two neighbours of a float on the grid of decimals with a given exponent, if
one of them rounds to the float. -/
def nearestOnGrid (mantissa : Nat) (exponent power : Int) : Option Decimal :=
  let numerator := mantissa * Nat.pow 2 exponent.toNat * Nat.pow 10 (-power).toNat
  let denominator := Nat.pow 2 (-exponent).toNat * Nat.pow 10 power.toNat
  let below : Decimal := ⟨numerator / denominator, power⟩
  let above : Decimal := ⟨numerator / denominator + 1, power⟩
  let rest := 2 * (numerator % denominator)
  match roundsTo mantissa exponent below, roundsTo mantissa exponent above with
  | true, false => some below
  | false, true => some above
  | false, false => none
  | true, true =>
      if rest < denominator || (rest == denominator && below.digits % 2 == 0) then some below
      else some above

/-- The same decimal without a last digit zero.  On the first grid with a hit a neighbour can be
ten, and only there can a last digit be zero. -/
def dropZero (decimal : Decimal) : Decimal :=
  if decimal.digits % 10 = 0 then ⟨decimal.digits / 10, decimal.exponent + 1⟩ else decimal

/-- The decimal with the fewest digits that rounds to the positive float
`mantissa * 2 ^ exponent`. -/
def shortest (mantissa : Nat) (exponent : Int) : Decimal :=
  let size := magnitude (mantissa * Nat.pow 2 exponent.toNat) (Nat.pow 2 (-exponent).toNat)
  dropZero (((List.range 17).findSome? fun count =>
    nearestOnGrid mantissa exponent (size - Int.ofNat count - 1)).getD ⟨0, 0⟩)

/-- How floats are written. -/
structure Style where
  /-- The least decimal exponent that is written positionally. -/
  least : Int
  /-- From this decimal exponent on a float is written with an exponent. -/
  bound : Int
  /-- An exponent has at least this many digits. -/
  exponentDigits : Nat

/-- Floats are positional from `1e-4` to below `1e16`, always with a fraction, and exponents have a
sign and at least two digits. -/
def plain : Style := ⟨-4, 16, 2⟩

/-- A positive decimal in a style. -/
def write (style : Style) (decimal : Decimal) : Text :=
  let digits := Text.ofNat decimal.digits
  let count := Int.ofNat digits.length
  -- The number is `0.digits * 10 ^ point`.
  let point := count + decimal.exponent
  let leading := point - 1
  let zeros (number : Int) : Text := List.replicate number.toNat ('0' : CodePoint)
  if style.least ≤ leading ∧ leading < style.bound then
    if point ≤ 0 then "0." ++ zeros (-point) ++ digits
    else if count ≤ point then digits ++ zeros (point - count) ++ ".0"
    else digits.take point.toNat ++ "." ++ digits.drop point.toNat
  else
    let fraction : Text := if digits.length = 1 then [] else "." ++ digits.drop 1
    let sign : Text := if leading < 0 then "-" else "+"
    digits.take 1 ++ fraction ++ "e" ++ sign ++ Text.padded 10 style.exponentDigits leading.natAbs

/-- The shortest text of a float that reads back as the float. -/
def floatText (value : Float) : Text :=
  let signed (negative : Bool) (text : Text) : Text := if negative then "-" ++ text else text
  match Binary64.parts value with
  | .nan => "nan"
  | .infinite negative => signed negative "inf"
  | .finite negative mantissa exponent =>
      signed negative (if mantissa = 0 then "0.0" else write plain (shortest mantissa exponent))

/-- The float nearest to a signed decimal.  A decimal that is out of range by far is not expanded:
it becomes zero or infinity at once. -/
def ofDecimal (negative : Bool) (decimal : Decimal) : Float :=
  let size := Int.ofNat (digitCount decimal.digits) + decimal.exponent
  if decimal.digits = 0 ∨ size < -400 then Binary64.zero negative
  else if 400 < size then Binary64.infinity negative
  else Binary64.nearestScaled negative decimal.digits 10 decimal.exponent

end Decimal

end ConfigGraph
