import ConfigGraph.Number.Literal
import ConfigGraph.Token.Basic

/-!
# Finding the next token

The lexer is told which terminals the grammar can take next and looks for those only.  Where a name
can stand, a reserved word is one only if it is the whole word and can stand there too.  Where no
name can stand, a reserved word that can is taken as soon as its letters come, whatever follows.
-/

namespace ConfigGraph.Lexer

/-- Blanks between tokens. -/
def isBlank (code : CodePoint) : Bool :=
  code == ' ' || code == '\t' || code == '\n' || code == '\r' || code.value == 12

/-- Drops blanks, and comments from a number sign to the end of the line.  The flag says whether
the text starts inside a comment. -/
def skip : Bool → Text → Text
  | _, [] => []
  | true, code :: rest => skip (code != '\n') rest
  | false, code :: rest =>
      if isBlank code then skip false rest
      else if code = '#' then skip true rest
      else code :: rest

/-- The text behind the blanks and comments at its start. -/
def skipBlanks (text : Text) : Text := skip false text

def isNameStart (code : CodePoint) : Bool := code.isAsciiLetter || code == '_'

def isNamePart (code : CodePoint) : Bool := isNameStart code || code.isAsciiDigit

/-- Symbols with their terminals, a longer one before those that it starts with. -/
def symbols : List (Text × Terminal) :=
  [("==", .comparison), ("!=", .comparison), ("<=", .comparison), (">=", .comparison),
    ("++", .sum), ("&&", .conjunction), ("||", .disjunction), ("=>", .arrow),
    ("<", .comparison), (">", .comparison), ("+", .sum), ("-", .sum),
    ("*", .product), ("/", .product), ("%", .product), ("-", .unary), ("!", .unary),
    ("&", .merge), ("=", .equals), ("(", .openParen), (")", .closeParen),
    ("\x7b", .openBrace), ("\x7d", .closeBrace), ("[", .openBracket), ("]", .closeBracket),
    (",", .comma), (".", .dot)]

/-- Reserved words as symbols. -/
def words : List (Text × Terminal) :=
  Keyword.all.map fun keyword => (keyword.spelling, .keyword keyword)

/-- The length of the body of a string literal with its closing quote.  A backslash takes the code
point behind it along, and a line ends no literal. -/
def stringLength? : Text → Option Nat
  | [] => none
  | code :: rest =>
      if code = '"' then some 1
      else if code = '\n' then none
      else if code = '\\' then
        match rest with
        | [] => none
        | taken :: tail => if taken = '\n' then none else (stringLength? tail).map (· + 2)
      else (stringLength? rest).map (· + 1)

/-- The first of some symbols that the grammar can take and that starts the text. -/
def symbol? (allowed : Terminal → Bool) (table : List (Text × Terminal)) (text : Text) :
    Option (Terminal × Nat) :=
  (table.find? fun entry => allowed entry.2 && text.startsWith entry.1).map fun entry =>
    (entry.2, entry.1.length - 1)

/-- The token that starts with a code point, and how many more code points belong to it. -/
def match? (allowed : Terminal → Bool) (first : CodePoint) (rest : Text) :
    Option (Terminal × Nat) :=
  if isNameStart first then
    if allowed .name then
      let more := rest.takeWhile isNamePart
      match Keyword.ofSpelling? (first :: more) with
      | some keyword =>
          some (if allowed (.keyword keyword) then .keyword keyword else .name, more.length)
      | none => some (.name, more.length)
    else symbol? allowed words (first :: rest)
  else if first.isDecimalDigit then
    if allowed .number then
      let more := rest.takeWhile CodePoint.isDecimalDigit
      let literal := Number.Literal.after CodePoint.isDecimalDigit (first :: more)
        (rest.drop more.length)
      some (.number, literal.length - 1)
    else none
  else if first = '"' then
    if allowed .string then (stringLength? rest).map fun length => (.string, length) else none
  else symbol? allowed symbols (first :: rest)

end ConfigGraph.Lexer
