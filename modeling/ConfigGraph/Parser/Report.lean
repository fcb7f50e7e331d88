import ConfigGraph.Error
import ConfigGraph.Parser.Basic

/-!
# Reporting faults of a document

A report names terminals by their labels and shows them with friendly descriptions, sorted and
without repetition.  `SyntaxFault.toFailure` turns what the parser found into a load error at the
place where it was found.  An integer with too many digits is no load error.
-/

namespace ConfigGraph

def Terminal.label : Terminal → Text
  | name => "NAME"
  | number => "NUMBER"
  | string => "STRING"
  | keyword word => word.spelling.map fun letter =>
      if h : 0x61 ≤ letter.value then
        ⟨letter.value - 0x20, by have := letter.value_lt; omega⟩
      else letter
  | equals => "EQUAL"
  | comma => "COMMA"
  | dot => "DOT"
  | arrow => "__ANON_0"
  | openParen => "LPAR"
  | closeParen => "RPAR"
  | openBrace => "LBRACE"
  | closeBrace => "RBRACE"
  | openBracket => "LSQB"
  | closeBracket => "RSQB"
  | merge => "MERGE"
  | disjunction => "OR"
  | conjunction => "AND"
  | comparison => "COMPARE_OP"
  | sum => "SUM_OP"
  | product => "PRODUCT_OP"
  | unary => "UNARY_OP"
  | finish => "$END"

namespace Report

/-- Friendly descriptions of terminals, by label. -/
def descriptions : List (Text × Text) :=
  [("NAME", "a name"),
    ("NUMBER", "a number"),
    ("STRING", "a string in double quotes"),
    ("TRUE", "'true'"),
    ("FALSE", "'false'"),
    ("NULL", "'null'"),
    ("LET", "the 'let' keyword"),
    ("FUN", "the 'fun' keyword"),
    ("IF", "the 'if' keyword"),
    ("IMPORT", "the 'import' keyword"),
    ("IN", "the 'in' keyword"),
    ("THEN", "the 'then' keyword"),
    ("ELSE", "the 'else' keyword"),
    ("EQUAL", "an equals sign '='"),
    ("COMMA", "a comma ','"),
    ("DOT", "a dot '.'"),
    ("LPAR", "an opening parenthesis '('"),
    ("RPAR", "a closing parenthesis ')'"),
    ("LBRACE", "an opening brace '\x7b'"),
    ("RBRACE", "a closing brace '\x7d'"),
    ("LSQB", "an opening bracket '['"),
    ("RSQB", "a closing bracket ']'"),
    ("MERGE", "the merge operator '&'"),
    ("OR", "the '||' operator"),
    ("AND", "the '&&' operator"),
    ("COMPARE_OP", "a comparison operator"),
    ("SUM_OP", "'+', '-' or '++'"),
    ("PRODUCT_OP", "'*', '/' or '%'"),
    ("UNARY_OP", "'-' or '!'"),
    ("$END", "the end of the file")]

/-- The description of a label; one without a description stands for itself. -/
def describe (label : Text) : Text :=
  ((descriptions.find? fun entry => entry.1 = label).map (·.2)).getD label

/-- Puts a text into a sorted list, unless it is there. -/
def insertSorted (text : Text) : List Text → List Text
  | [] => [text]
  | other :: others =>
      if text = other then other :: others
      else if text.before other then text :: other :: others
      else other :: insertSorted text others

/-- Texts sorted and without repetition. -/
def sorted (texts : List Text) : List Text := texts.foldr insertSorted []

/-- What was expected, in words; nothing if there is no label. -/
def expectation (labels : List Text) : Text :=
  match (sorted (labels.map describe)).reverse with
  | [] => []
  | [only] => "Expected " ++ only
  | last :: others =>
      "Expected one of: " ++ Text.join ", " others.reverse ++ " or " ++ last

end Report

/-- What a parser has to say about a document; the place is given apart. -/
inductive Report where
  /-- A token that does not fit: the labels that would, whether it is the end of the document, and
  how it is written. -/
  | token (expected : List Text) (isEnd : Bool) (lexeme : Text)
  /-- A character with which no token starts. -/
  | character (character : Text)
  /-- The document ends too early. -/
  | ending (expected : List Text)
  /-- Anything else, in the given words. -/
  | other (words : Text)

namespace Report

/-- The code and the one detail of a report. -/
def content : Report → ErrorCode × Text × Text
  | token expected isEnd lexeme =>
      let expectation := expectation expected
      let found : Text :=
        if isEnd then "but reached the end of the file instead."
        else "but found '" ++ lexeme ++ "' instead."
      let details : Text :=
        if expectation = [] then "Found unexpected token '" ++ lexeme ++ "'."
        else expectation ++ ", " ++ found
      (.unexpectedToken, "details", details)
  | character code => (.invalidCharacter, "char", code)
  | ending expected => (.unexpectedEnd, "details", expectation expected)
  | other words => (.parsingError, "details", words)

/-- The load error of a report about a document.  Without a sensible offset the error is at the end
of the text. -/
def toError (report : Report) (source : Source) (offset : Option Int) : LoadError :=
  let (code, name, detail) := report.content
  let place : Int :=
    match offset with
    | some offset => if offset < 0 then source.text.length else offset
    | none => source.text.length
  LoadError.ofTexts .parse code [(name, detail)] (some source.path)
    (some (rangeAt source.text place))

end Report

/-- The failure of a fault in a document. -/
def SyntaxFault.toFailure (source : Source) : SyntaxFault → Failure
  | unexpected expected found =>
      .error ((Report.token (expected.map Terminal.label) (found.terminal == .finish)
        found.lexeme).toError source (some found.start))
  | invalidCharacter offset character =>
      .error ((Report.character [character]).toError source (some offset))
  | invalidEscape token =>
      .error (.ofTexts .parse .invalidEscape [("escape", token.lexeme)] (some source.path)
        (some (rangeAt source.text token.start)))
  | tooManyDigits token => .fault (.numberToken token.lexeme.length)

end ConfigGraph
