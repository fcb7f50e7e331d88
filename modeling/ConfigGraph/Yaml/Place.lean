import ConfigGraph.Text.Basic

/-!
# Places in a YAML document

A place is what is left of a document to be read, with the offset, the line and the column of its
first code point.  Reading functions take a place and return the place behind what they read.
-/

namespace ConfigGraph.Yaml

/-- Line feed, carriage return, next line, line separator and paragraph separator end a line. -/
def isBreak (code : CodePoint) : Bool :=
  code == '\n' || code == '\r' || code.value == 0x85 || code.value == 0x2028 || code.value == 0x2029

/-- A space or a line break. -/
def isSpaceOrBreak (code : CodePoint) : Bool := code == ' ' || isBreak code

/-- A space or a tab. -/
def isBlank (code : CodePoint) : Bool := code == ' ' || code == '\t'

/-- A space, a tab or a line break. -/
def isBlankOrBreak (code : CodePoint) : Bool := isBlank code || isBreak code

/-- The code points of names of anchors, handles and directives. -/
def isWordPart (code : CodePoint) : Bool :=
  code.isAsciiLetter || code.isAsciiDigit || code == '-' || code == '_'

/-- Whether a code point is one of those of a text. -/
def isOneOf (text : Text) (code : CodePoint) : Bool := text.contains code

/-- What is left of a document, and where that starts. -/
structure Place where
  /-- The text from here on. -/
  rest : Text
  /-- The number of code points before it. -/
  offset : Nat
  line : Nat
  column : Nat
  deriving DecidableEq, Inhabited

namespace Place

def start (text : Text) : Place := ⟨text, 0, 0, 0⟩

def peek (place : Place) : Option CodePoint := place.rest.head?

/-- The code point behind some others. -/
def look (place : Place) (distance : Nat) : Option CodePoint := place.rest[distance]?

/-- The place behind the next code point.  A carriage return before a line feed ends no line of its
own, and a byte order mark takes no column. -/
def next (place : Place) : Place :=
  match place.rest with
  | [] => place
  | code :: rest =>
      if isBreak code && !(code == '\r' && rest.head? == some '\n') then
        ⟨rest, place.offset + 1, place.line + 1, 0⟩
      else if code.value ≠ 0xfeff then
        ⟨rest, place.offset + 1, place.line, place.column + 1⟩
      else ⟨rest, place.offset + 1, place.line, place.column⟩

def advance (place : Place) : Nat → Place
  | 0 => place
  | count + 1 => place.next.advance count

/-- The code points that satisfy a condition, up to the first that does not, and the place behind
them. -/
def takeWhile (place : Place) (condition : CodePoint → Bool) : Text × Place :=
  let taken := place.rest.takeWhile condition
  (taken, place.advance taken.length)

/-- The place behind all code points that satisfy a condition, up to the first that does not. -/
def skipWhile (place : Place) (condition : CodePoint → Bool) : Place :=
  (place.takeWhile condition).2

def skipSpaces (place : Place) : Place := place.skipWhile (· == ' ')

/-- The place behind the spaces at a place, as long as they lie before a column. -/
def skipSpacesBefore (place : Place) (column : Nat) : Place :=
  let isSpace (code : CodePoint) : Bool := code == ' '
  place.advance ((place.rest.take (column - place.column)).takeWhile isSpace).length

/-- The place at the end of the line if a comment starts here. -/
def skipComment (place : Place) : Place :=
  if place.peek = some '#' then place.skipWhile fun code => !isBreak code else place

/-- The line break at a place, if there is one: all breaks but the line separator and the paragraph
separator count as line feeds. -/
def takeBreak (place : Place) : Text × Place :=
  match place.rest with
  | [] => ([], place)
  | code :: rest =>
      if code = '\r' ∧ rest.head? = some '\n' then (['\n'], place.advance 2)
      else if code.value = 0x2028 ∨ code.value = 0x2029 then ([code], place.next)
      else if isBreak code then (['\n'], place.next)
      else ([], place)

/-- Whether a separator of documents stands at a place: three hyphens or three points, with nothing
but a blank or a line break behind them. -/
def atSeparator (place : Place) (mark : Text) : Bool :=
  place.rest.startsWith mark && (place.look 3).all isBlankOrBreak

def atAnySeparator (place : Place) : Bool := place.atSeparator "---" || place.atSeparator "..."

end Place

end ConfigGraph.Yaml
