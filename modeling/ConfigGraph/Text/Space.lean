import ConfigGraph.Text.DecimalDigit

/-!
# Blanks around numbers

Numbers may have blanks around them, and their digits may be those of any script.  `asciiDigits`
writes such a text with ASCII digits and ordinary spaces.
-/

namespace ConfigGraph.CodePoint

/-- The blanks of ASCII. -/
def isAsciiSpace (code : CodePoint) : Bool := code.value == 0x20 || code.within 0x09 0x0d

/-- The blanks outside of ASCII. -/
def isWideSpace (code : CodePoint) : Bool :=
  code.value == 0x85 || code.value == 0xa0 || code.value == 0x1680 || code.within 0x2000 0x200a ||
    code.value == 0x2028 || code.value == 0x2029 || code.value == 0x202f || code.value == 0x205f ||
    code.value == 0x3000

end ConfigGraph.CodePoint

namespace ConfigGraph.Text

/-- A code point of a number in ASCII, as far as it has such a form. -/
def asciiDigit (code : CodePoint) : CodePoint :=
  if code.isWideSpace then ' '
  else
    match code.decimalDigit? with
    | some digit => CodePoint.ofDigit digit
    | none => code

/-- A text with ASCII digits in the place of all others, and without the blanks around it. -/
def asciiDigits (text : Text) : Text :=
  let isSpace := CodePoint.isAsciiSpace
  (((text.map asciiDigit).dropWhile isSpace).reverse.dropWhile isSpace).reverse

end ConfigGraph.Text
