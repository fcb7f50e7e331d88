import ConfigGraph.Yaml.Timestamp

/-!
# Tags

A tag says what a node stands for.  `Tag.ofScalar` finds the tag of a scalar that carries none from
its text.
-/

namespace ConfigGraph.Yaml

/-- The meaning of a node. -/
inductive Tag where
  | null | bool | int | float | binary | timestamp
  | omap | pairs | set
  | str | seq | map
  /-- A key whose value is merged into the mapping around it. -/
  | merge
  /-- A key whose value stands for the mapping around it. -/
  | value
  | other (name : Text)
  deriving DecidableEq

namespace Tag

/-- What the names of the common tags start with. -/
def common : Text := "tag:yaml.org,2002:"

/-- The tags with names of their own. -/
def named : List (Text × Tag) :=
  [("null", null), ("bool", bool), ("int", int), ("float", float), ("binary", binary),
    ("timestamp", timestamp), ("omap", omap), ("pairs", pairs), ("set", set), ("str", str),
    ("seq", seq), ("map", map), ("merge", merge), ("value", value)]

def ofName (name : Text) : Tag :=
  match named.find? fun entry => common ++ entry.1 = name with
  | some (_, tag) => tag
  | none => other name

def name : Tag → Text
  | other name => name
  | tag => common ++ ((named.find? fun entry => entry.2 = tag).map (·.1)).getD []

/-! ## Forms of scalars -/

/-- A text without a sign at its start. -/
def unsigned (text : Text) : Text :=
  if text.head?.any Number.Literal.isSign then text.drop 1 else text

/-- Digits of a base, with underscores between or around them. -/
def isDigits (base : Nat) (text : Text) : Bool :=
  text.all fun code => code == '_' || code.hexDigit?.any (· < base)

/-- Digits of a base with at least one digit or underscore. -/
def isSomeDigits (base : Nat) (text : Text) : Bool := text != [] && isDigits base text

/-- Decimal digits and underscores, the first one a digit. -/
def isDecimal (text : Text) : Bool :=
  text.head?.any CodePoint.isAsciiDigit && isDigits 10 text

/-- Decimal digits and underscores, the first one a digit other than zero. -/
def isPositive (text : Text) : Bool := isDecimal text && text.head? != some '0'

/-- A number below sixty with one or two digits. -/
def isSixtieth (text : Text) : Bool :=
  text.all CodePoint.isAsciiDigit &&
    (text.length == 1 || (text.length == 2 && text.head?.any fun code => code.within 0x30 0x35))

/-- Numbers between colons: the first satisfies a condition, the others are below sixty, and there
is at least one of those. -/
def isSexagesimal (first : Text → Bool) (text : Text) : Bool :=
  match Text.splitOn ':' text with
  | leading :: sixtieths => first leading && sixtieths != [] && sixtieths.all isSixtieth
  | [] => false

/-- The form of integers: binary, octal, decimal, hexadecimal or sexagesimal. -/
def isInt (text : Text) : Bool :=
  let digits := unsigned text
  (digits.startsWith "0b" && isSomeDigits 2 (digits.drop 2)) ||
    (digits.startsWith "0x" && isSomeDigits 16 (digits.drop 2)) ||
    (digits.startsWith "0" && isSomeDigits 8 (digits.drop 1)) ||
    digits == Text.ofString "0" || isPositive digits || isSexagesimal isPositive digits

/-- The form of exponents: nothing, or a letter, a sign and digits. -/
def isExponent (text : Text) : Bool :=
  match text with
  | [] => true
  | mark :: rest =>
      Number.Literal.isExponentMark mark && rest.head?.any Number.Literal.isSign &&
        1 < rest.length && (rest.drop 1).all CodePoint.isAsciiDigit

/-- The form of what follows the point of a float: digits and underscores, and an exponent. -/
def isFraction (text : Text) : Bool :=
  isExponent (text.dropWhile fun code => code.isAsciiDigit || code == '_')

/-- The form of floats: with a point, and with digits before or behind it, or one of the words for
what is infinite or undefined. -/
def isFloat (text : Text) : Bool :=
  let digits := unsigned text
  let whole := digits.takeWhile fun code : CodePoint => code != '.'
  let fraction := digits.drop (whole.length + 1)
  let infinities : List Text := [".inf", ".Inf", ".INF"]
  let undefined : List Text := [".nan", ".NaN", ".NAN"]
  if whole = [] then
    infinities.contains digits || undefined.contains text ||
      (text == digits && fraction.head?.any CodePoint.isAsciiDigit && isFraction fraction)
  else
    whole != digits &&
      ((isDecimal whole && isFraction fraction) ||
        (isSexagesimal isDecimal whole && isDigits 10 fraction))

def boolWords : List Text :=
  ["yes", "Yes", "YES", "no", "No", "NO", "true", "True", "TRUE", "false", "False", "FALSE",
    "on", "On", "ON", "off", "Off", "OFF"]

def nullWords : List Text := ["", "~", "null", "Null", "NULL"]

/-- The tags that the text of a scalar can tell, each with the form that tells it. -/
def forms : List (Tag × (Text → Bool)) :=
  [(bool, boolWords.contains), (float, isFloat), (int, isInt),
    (merge, (· == Text.ofString "<<")), (null, nullWords.contains),
    (timestamp, fun text => (Timestamp.parse? text).any Timestamp.isImplicit),
    (value, (· == Text.ofString "=")),
    (other (common ++ "yaml"), fun text => ["!", "&", "*"].any fun sign => text == Text.ofString sign)]

/-- A text without a line feed at its end, unless it is nothing else. -/
def withoutLineFeed (text : Text) : Text :=
  if 1 < text.length ∧ text.getLast? = some '\n' then text.dropLast else text

/-- The tag that a scalar gets from its text.  A line feed at its end does not count. -/
def ofScalar (text : Text) : Tag :=
  let body := withoutLineFeed text
  ((forms.find? fun form => form.2 body).map (·.1)).getD str

end Tag

end ConfigGraph.Yaml
