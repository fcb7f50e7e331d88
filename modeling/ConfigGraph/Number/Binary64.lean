/-!
# Binary fractions of double precision

The exact value of a float, and the float nearest to an exact fraction.  All other conversions
between decimal, integer and float go through these two functions: `parts` reads a float as a
signed integer times a power of two, and `nearest` rounds a non-negative fraction, a tie going to
the even neighbour.
-/

namespace ConfigGraph.Binary64

/-- What a float stands for. -/
inductive Parts where
  /-- No number at all. -/
  | nan
  /-- An infinity; the flag is set for the negative one. -/
  | infinite (negative : Bool)
  /-- The number `± mantissa * 2 ^ exponent`; zero keeps its sign. -/
  | finite (negative : Bool) (mantissa : Nat) (exponent : Int)
  deriving DecidableEq

/-- The exact meaning of a float. -/
def parts (value : Float) : Parts :=
  let bits := value.toBits.toNat
  let negative := 1 ≤ bits / Nat.pow 2 63
  let biased := bits / Nat.pow 2 52 % Nat.pow 2 11
  let fraction := bits % Nat.pow 2 52
  if biased = 2047 then
    if fraction = 0 then .infinite negative else .nan
  else if biased = 0 then .finite negative fraction (-1074)
  else .finite negative (fraction + Nat.pow 2 52) (Int.ofNat biased - 1075)

def ofBits (bits : Nat) : Float := Float.ofBits (UInt64.ofNat bits)

/-- The bits of positive infinity. -/
def infinityBits : Nat := 2047 * Nat.pow 2 52

/-- The exponent of the leading bit of a fraction, or one more. -/
def leadingBit (numerator denominator : Nat) : Int :=
  Int.ofNat numerator.log2 - Int.ofNat denominator.log2

/-- The bits of the float nearest to `numerator / denominator`, a tie going to the even neighbour;
what lies beyond the greatest float becomes infinity. -/
def nearestBits (numerator denominator : Nat) : Nat :=
  if numerator = 0 then 0
  else
    -- A quotient of at least fifty-four bits, and whether something is left over.
    let shift : Int := 55 - leadingBit numerator denominator
    let scaled := numerator * Nat.pow 2 shift.toNat
    let divisor := denominator * Nat.pow 2 (-shift).toNat
    let quotient := scaled / divisor
    let sticky := scaled % divisor ≠ 0
    -- The exponent of the last bit that the result keeps.
    let last : Int := max (Int.ofNat quotient.log2 - shift - 52) (-1074)
    let dropped := (last + shift).toNat
    let kept := quotient / Nat.pow 2 dropped
    let rest := quotient % Nat.pow 2 dropped
    let half := Nat.pow 2 dropped / 2
    let up := half < rest || (rest == half && (sticky || kept % 2 == 1))
    let rounded := if up then kept + 1 else kept
    min ((last + 1074).toNat * Nat.pow 2 52 + rounded) infinityBits

/-- The float nearest to `± numerator / denominator`. -/
def nearest (negative : Bool) (numerator denominator : Nat) : Float :=
  ofBits (nearestBits numerator denominator + if negative then Nat.pow 2 63 else 0)

/-- The float nearest to `± mantissa * base ^ exponent`. -/
def nearestScaled (negative : Bool) (mantissa base : Nat) (exponent : Int) : Float :=
  nearest negative (mantissa * Nat.pow base exponent.toNat) (Nat.pow base (-exponent).toNat)

def infinity (negative : Bool) : Float :=
  ofBits (infinityBits + if negative then Nat.pow 2 63 else 0)

def zero (negative : Bool) : Float := ofBits (if negative then Nat.pow 2 63 else 0)

/-- A float that is no number. -/
def nan : Float := ofBits (infinityBits + Nat.pow 2 51)

def isNaN (value : Float) : Bool := parts value == .nan

end ConfigGraph.Binary64
