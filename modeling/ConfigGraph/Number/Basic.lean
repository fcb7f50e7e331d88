import ConfigGraph.Number.Decimal

/-!
# Numbers

A number is an integer of any size or a float.  Integers stay integers under every operation but an
inexact division; as soon as a float takes part the operation is one on floats.  Comparisons are
exact, also between an integer and a float.
-/

namespace ConfigGraph

inductive Number where
  | int (value : Int)
  | float (value : Float)
  deriving DecidableEq

namespace Number

/-- Ways in which an operation can leave the range of floats. -/
inductive Overflow where
  /-- An integer operand is too large to take part as a float. -/
  | operand
  /-- The quotient of two integers is too large for a float. -/
  | quotient
  deriving DecidableEq

def Overflow.message : Overflow → Text
  | .operand => "int too large to convert to float"
  | .quotient => "integer division result too large for a float"

/-- The float nearest to an integer, if it is finite. -/
def floatOfInt (value : Int) : Except Overflow Float :=
  let nearest := Binary64.nearest (value < 0) value.natAbs 1
  if nearest.isFinite then .ok nearest else .error .operand

/-- A number as an operand of a float operation. -/
def toFloat : Number → Except Overflow Float
  | .int value => floatOfInt value
  | .float value => .ok value

def isZero : Number → Bool
  | .int value => value == 0
  | .float value => value == 0.0

/-- An operation that is one on integers if both operands are integers and one on floats
otherwise. -/
def arithmetic (onInts : Int → Int → Int) (onFloats : Float → Float → Float) :
    Number → Number → Except Overflow Number
  | .int left, .int right => .ok (.int (onInts left right))
  | left, right => do
      let leftFloat ← left.toFloat
      let rightFloat ← right.toFloat
      return .float (onFloats leftFloat rightFloat)

/-- The remainder of floats that has the sign of the divisor, computed exactly and rounded once. -/
def floatModulo (left right : Float) : Float :=
  match Binary64.parts left, Binary64.parts right with
  | .nan, _ => Binary64.nan
  | _, .nan => Binary64.nan
  | .infinite _, _ => Binary64.nan
  | .finite negative mantissa _, .infinite divisorNegative =>
      if mantissa = 0 then Binary64.zero divisorNegative
      else if negative = divisorNegative then left
      else left + right
  | .finite negative mantissa exponent, .finite divisorNegative divisor divisorExponent =>
      let least := min exponent divisorExponent
      let rest := mantissa * Nat.pow 2 (exponent - least).toNat %
        (divisor * Nat.pow 2 (divisorExponent - least).toNat)
      if rest = 0 then Binary64.zero divisorNegative
      else
        let remainder := Binary64.nearestScaled negative rest 2 least
        if negative = divisorNegative then remainder else remainder + right

def add : Number → Number → Except Overflow Number :=
  arithmetic (· + ·) (· + ·)

def subtract : Number → Number → Except Overflow Number :=
  arithmetic (· - ·) (· - ·)

def multiply : Number → Number → Except Overflow Number :=
  arithmetic (· * ·) (· * ·)

/-- The remainder with the sign of the divisor; the divisor is not zero. -/
def modulo : Number → Number → Except Overflow Number :=
  arithmetic Int.fmod floatModulo

/-- The quotient: exact if two integers divide evenly, else the nearest float.  The divisor is not
zero. -/
def divide : Number → Number → Except Overflow Number
  | .int left, .int right =>
      if Int.fmod left right = 0 then .ok (.int (Int.fdiv left right))
      else
        let nearest := Binary64.nearest ((left < 0) != (right < 0)) left.natAbs right.natAbs
        if nearest.isFinite then .ok (.float nearest) else .error .quotient
  | left, right => do
      let leftFloat ← left.toFloat
      let rightFloat ← right.toFloat
      return .float (leftFloat / rightFloat)

def negate : Number → Number
  | .int value => .int (-value)
  | .float value => .float (-value)

/-- Compares an integer with a fraction `± mantissa * 2 ^ exponent`. -/
def compareIntFinite (value : Int) (negative : Bool) (mantissa : Nat) (exponent : Int) : Ordering :=
  let signed : Int := if negative then -Int.ofNat mantissa else Int.ofNat mantissa
  compare (value * Int.ofNat (Nat.pow 2 (-exponent).toNat))
    (signed * Int.ofNat (Nat.pow 2 exponent.toNat))

/-- Compares an integer with a float; nothing compares with what is no number. -/
def compareIntFloat (left : Int) (right : Float) : Option Ordering :=
  match Binary64.parts right with
  | .nan => none
  | .infinite negative => some (if negative then .gt else .lt)
  | .finite negative mantissa exponent => some (compareIntFinite left negative mantissa exponent)

/-- The exact order of two numbers, if both are numbers. -/
def compare? : Number → Number → Option Ordering
  | .int left, .int right => some (compare left right)
  | .int left, .float right => compareIntFloat left right
  | .float left, .int right => (compareIntFloat right left).map Ordering.swap
  | .float left, .float right =>
      if left < right then some .lt
      else if left == right then some .eq
      else if right < left then some .gt
      else none

/-- Whether two numbers are the same quantity. -/
def same (left right : Number) : Bool := compare? left right == some .eq

end Number

end ConfigGraph
