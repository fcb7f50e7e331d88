import ConfigGraph.Text.Quoted
import ConfigGraph.Value.Basic

/-!
# Values in messages

A text stands in a message as it is; all other values, and texts inside containers, are written out
as literals.
-/

namespace ConfigGraph.Value

/-- Bytes in quotes behind a letter; those outside of ASCII are escaped. -/
def bytesLiteral (bytes : List UInt8) : Text :=
  let codes : Text := bytes.map fun byte => .ofChar (Char.ofNat byte.toNat)
  let quote := Text.quoteFor codes
  let written (code : CodePoint) : Text :=
    if code.value < 0x80 then Text.quoteCodePoint quote code
    else "\\x" ++ Text.padded 16 2 code.value
  "b" ++ quote :: codes.flatMap written ++ [quote]

mutual

/-- A value written out as a literal. -/
def literal : Value → Text
  | null => "None"
  | bool value => if value then "True" else "False"
  | int value => Text.ofInt value
  | float value => Decimal.floatText value
  | nan _ => "nan"
  | text value => Text.quoted value
  | bytes value => bytesLiteral value
  | date value => value.isoText
  | dateTime value => value.textWith " "
  | array values => "[" ++ Text.join ", " (literals values) ++ "]"
  | tuple [value] => "(" ++ literal value ++ ",)"
  | tuple values => "(" ++ Text.join ", " (literals values) ++ ")"
  | set [] => "set()"
  | set values => "\x7b" ++ Text.join ", " (literals values) ++ "\x7d"
  | record fields => "\x7b" ++ Text.join ", " (fieldLiterals fields) ++ "\x7d"
  | function .. => "function"
  | foreign kind => kind
  | knot .. => "..."

def literals : List Value → List Text
  | [] => []
  | value :: values => literal value :: literals values

def fieldLiterals : List (Value × Value) → List Text
  | [] => []
  | (key, value) :: fields => (literal key ++ ": " ++ literal value) :: fieldLiterals fields

end

/-- A value as it stands in a message. -/
def display : Value → Text
  | text value => value
  | value => value.literal

end ConfigGraph.Value
