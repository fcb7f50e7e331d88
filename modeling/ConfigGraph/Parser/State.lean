import ConfigGraph.Expr
import ConfigGraph.Json.StringLiteral
import ConfigGraph.Token.Lexer

/-!
# The parser as a pushdown machine

The machine keeps the constructs that are open, innermost first, and what it expects next.  Each
token is one step.  `State.accepted` lists the terminals that the lexer looks for in a state;
`State.step` either goes on or is stuck, and then names the terminals that would have been right.

An operand is followed by any operator or closing token that can follow some operand somewhere, so
that only the step finds out whether it fits the constructs that are open here.
-/

namespace ConfigGraph

namespace BinaryOperator

/-- How tightly an operator binds. -/
def level : BinaryOperator → Nat
  | merge => 0
  | disjunction => 1
  | conjunction => 2
  | equal | notEqual | less | lessOrEqual | greater | greaterOrEqual => 3
  | add | subtract | concat => 4
  | multiply | divide | modulo => 5

/-- The terminal and the lexeme of an operator. -/
def written : List (Text × BinaryOperator) :=
  [("+", add), ("-", subtract), ("*", multiply), ("/", divide), ("%", modulo), ("++", concat),
    ("&", merge), ("&&", conjunction), ("||", disjunction), ("==", equal), ("!=", notEqual),
    ("<", less), ("<=", lessOrEqual), (">", greater), (">=", greaterOrEqual)]

def ofLexeme (lexeme : Text) : BinaryOperator :=
  ((written.find? fun entry => entry.1 = lexeme).map (·.2)).getD merge

end BinaryOperator

namespace UnaryOperator

def ofLexeme (lexeme : Text) : UnaryOperator := if lexeme = "-" then negate else negation

end UnaryOperator

namespace Parser

/-- A field whose value is known. -/
abbrev Field := Span × Text × Expr

/-- A construct that is open. -/
inductive Frame where
  /-- An operator before its operand. -/
  | unary (start : Nat) (operator : UnaryOperator)
  /-- An operator behind its left operand. -/
  | binary (operator : BinaryOperator) (left : Expr)
  /-- A binding whose value comes. -/
  | letValue (start : Nat) (name : Text)
  /-- A binding whose body comes. -/
  | letBody (start : Nat) (name : Text) (value : Expr)
  /-- A function whose body comes. -/
  | functionBody (start : Nat) (parameters : List Text)
  | condition (start : Nat)
  | thenBranch (start : Nat) (condition : Expr)
  | elseBranch (start : Nat) (condition thenBranch : Expr)
  /-- An expression in parentheses. -/
  | group
  /-- A call with the arguments that are complete. -/
  | call (callee : Expr) (arguments : List Expr)
  /-- An array with the items that are complete. -/
  | array (start : Nat) (items : List Expr)
  /-- A record with the fields that are complete. -/
  | record (start : Nat) (fields : List Field)
  /-- A field whose value comes, in a record with the fields that are complete. -/
  | field (recordStart : Nat) (fields : List Field) (start : Nat) (name : Text)

/-- What comes next. -/
inductive Mode where
  /-- The first token of an operand. -/
  | operand
  /-- An operator or the end of a construct, behind an operand that is complete.  The flag is set
  right behind the name of an accessed field. -/
  | operator (operand : Expr) (afterName : Bool)
  /-- The name of the field to access. -/
  | accessName (target : Expr)
  /-- The name that a binding binds. -/
  | letName (start : Nat)
  /-- The equals sign of a binding. -/
  | letEquals (start : Nat) (name : Text)
  /-- Parameters, or the arrow behind them. -/
  | parameters (start : Nat) (names : List Text)
  /-- The path of an import. -/
  | importPath (start : Nat)
  /-- The name of a field, or the end of the record. -/
  | fieldName
  /-- The equals sign of a field. -/
  | fieldEquals (start : Nat) (name : Text)

/-- The machine between two tokens. -/
structure State where
  mode : Mode
  frames : List Frame

def State.initial : State := ⟨.operand, []⟩

/-- Terminals that start an operand. -/
def operandStarts : List Terminal :=
  [.name, .number, .string, .keyword .trueWord, .keyword .falseWord, .keyword .nullWord,
    .keyword .importWord, .openParen, .openBrace, .openBracket, .unary]

/-- Terminals that start an expression. -/
def exprStarts : List Terminal :=
  [.keyword .letWord, .keyword .funWord, .keyword .ifWord] ++ operandStarts

/-- Terminals behind an expression, whatever it stands in. -/
def exprEnds : List Terminal :=
  [.finish, .comma, .closeParen, .closeBrace, .closeBracket, .keyword .inWord, .keyword .thenWord,
    .keyword .elseWord]

/-- Terminals that no comparison can take behind its right operand but that end it. -/
def comparisonEnds : List Terminal := [.merge, .disjunction, .conjunction] ++ exprEnds

/-- Terminals behind an operand, whatever it stands in. -/
def operandEnds : List Terminal :=
  [.dot, .openParen, .product, .sum, .comparison] ++ comparisonEnds

namespace State

/-- The terminals that the lexer looks for. -/
def accepted (state : State) : List Terminal :=
  match state.mode with
  | .operand =>
      match state.frames with
      | .unary .. :: _ | .binary .. :: _ => operandStarts
      | .array .. :: _ => .closeBracket :: exprStarts
      | .call _ [] :: _ => .closeParen :: exprStarts
      | _ => exprStarts
  | .operator _ afterName => if afterName then .equals :: operandEnds else operandEnds
  | .fieldEquals .. => .equals :: operandEnds
  | .accessName _ => [.name, .string]
  | .letName _ => [.name]
  | .letEquals .. => [.equals]
  | .parameters .. => [.name, .arrow]
  | .importPath _ => [.string]
  | .fieldName => [.name, .string, .closeBrace]

/-- What the lexer can say it looked for: where a name can stand, reserved words go without
saying, and the end of the document is no lexeme. -/
def lexable (state : State) : List Terminal :=
  let accepted := state.accepted
  accepted.filter fun terminal =>
    match terminal with
    | .finish => false
    | .keyword _ => !accepted.contains .name
    | _ => true

end State

/-- The value of a string token.  One with a bad escape has none, and an empty text stands in. -/
def stringValue (token : Token) : Text := (Json.stringLiteral? token.lexeme).getD []

/-- The name that a name token or a string token gives to a field. -/
def fieldNameOf (token : Token) : Text :=
  if token.terminal = .string then stringValue token else token.lexeme

/-- The number that a number token spells.  `parseExpr` takes no integer that is too long. -/
def numberValue (token : Token) : Number :=
  let whole := token.lexeme.takeWhile CodePoint.isDecimalDigit
  (Number.Literal.after CodePoint.isDecimalDigit whole (token.lexeme.drop whole.length)).value false

/-- Closes the operators that bind at least as tightly as a level around an operand. -/
def closeOperators (least : Nat) : Expr → List Frame → Expr × List Frame
  | operand, .unary start operator :: frames =>
      closeOperators least (.unary ⟨start, operand.span.stop⟩ operator operand) frames
  | operand, .binary operator left :: frames =>
      if least ≤ operator.level then
        closeOperators least
          (.binary ⟨left.span.start, operand.span.stop⟩ operator left operand) frames
      else (operand, .binary operator left :: frames)
  | operand, frames => (operand, frames)

/-- Closes everything that an expression ends without a token of its own: all operators, bindings,
functions and conditionals. -/
def closeExpr : Expr → List Frame → Expr × List Frame
  | expr, .unary start operator :: frames =>
      closeExpr (.unary ⟨start, expr.span.stop⟩ operator expr) frames
  | expr, .binary operator left :: frames =>
      closeExpr (.binary ⟨left.span.start, expr.span.stop⟩ operator left expr) frames
  | expr, .letBody start name value :: frames =>
      closeExpr (.letIn ⟨start, expr.span.stop⟩ name value expr) frames
  | expr, .functionBody start parameters :: frames =>
      closeExpr (.function ⟨start, expr.span.stop⟩ parameters expr) frames
  | expr, .elseBranch start condition thenBranch :: frames =>
      closeExpr (.conditional ⟨start, expr.span.stop⟩ condition thenBranch expr) frames
  | expr, frames => (expr, frames)

/-- What a step comes to. -/
inductive Outcome where
  /-- The machine goes on. -/
  | next (state : State)
  /-- The document is complete. -/
  | done (expr : Expr)
  /-- The token does not fit; these terminals would. -/
  | stuck (expected : List Terminal)

/-- Goes on behind a complete operand. -/
def Outcome.operand (operand : Expr) (frames : List Frame) : Outcome :=
  .next ⟨.operator operand false, frames⟩

def stepOperand (frames : List Frame) (token : Token) : Outcome :=
  let span := token.span
  match token.terminal, frames with
  | .number, _ => .operand (.number span (numberValue token)) frames
  | .string, _ => .operand (.string span (stringValue token)) frames
  | .name, _ => .operand (.identifier span token.lexeme) frames
  | .keyword .trueWord, _ => .operand (.boolean span true) frames
  | .keyword .falseWord, _ => .operand (.boolean span false) frames
  | .keyword .nullWord, _ => .operand (.null span) frames
  | .keyword .importWord, _ => .next ⟨.importPath token.start, frames⟩
  | .keyword .letWord, _ => .next ⟨.letName token.start, frames⟩
  | .keyword .funWord, _ => .next ⟨.parameters token.start [], frames⟩
  | .keyword .ifWord, _ => .next ⟨.operand, .condition token.start :: frames⟩
  | .unary, _ =>
      .next ⟨.operand, .unary token.start (UnaryOperator.ofLexeme token.lexeme) :: frames⟩
  | .openParen, _ => .next ⟨.operand, .group :: frames⟩
  | .openBracket, _ => .next ⟨.operand, .array token.start [] :: frames⟩
  | .openBrace, _ => .next ⟨.fieldName, .record token.start [] :: frames⟩
  | .closeBracket, .array start items :: frames =>
      .operand (.array ⟨start, token.stop⟩ items) frames
  | .closeParen, .call callee [] :: frames =>
      .operand (.call ⟨callee.span.start, token.stop⟩ callee []) frames
  | _, _ => .stuck (State.mk .operand frames).accepted

/-- A step at the end of an expression, inside the construct that stays open around it. -/
def stepEnd (expr : Expr) (frames : List Frame) (token : Token) : Outcome :=
  match frames, token.terminal with
  | [], .finish => .done expr
  | .letValue start name :: frames, .keyword .inWord =>
      .next ⟨.operand, .letBody start name expr :: frames⟩
  | .condition start :: frames, .keyword .thenWord =>
      .next ⟨.operand, .thenBranch start expr :: frames⟩
  | .thenBranch start condition :: frames, .keyword .elseWord =>
      .next ⟨.operand, .elseBranch start condition expr :: frames⟩
  | .group :: frames, .closeParen => .operand expr frames
  | .call callee arguments :: frames, .comma =>
      .next ⟨.operand, .call callee (arguments ++ [expr]) :: frames⟩
  | .call callee arguments :: frames, .closeParen =>
      .operand (.call ⟨callee.span.start, token.stop⟩ callee (arguments ++ [expr])) frames
  | .array start items :: frames, .comma =>
      .next ⟨.operand, .array start (items ++ [expr]) :: frames⟩
  | .array start items :: frames, .closeBracket =>
      .operand (.array ⟨start, token.stop⟩ (items ++ [expr])) frames
  | .field recordStart fields start name :: frames, .comma =>
      .next ⟨.fieldName,
        .record recordStart (fields ++ [(⟨start, expr.span.stop⟩, name, expr)]) :: frames⟩
  | .field recordStart fields start name :: frames, .closeBrace =>
      .operand (.record ⟨recordStart, token.stop⟩
        (fields ++ [(⟨start, expr.span.stop⟩, name, expr)])) frames
  | [], _ => .stuck [.finish]
  | .letValue .. :: _, _ => .stuck [.keyword .inWord]
  | .condition _ :: _, _ => .stuck [.keyword .thenWord]
  | .thenBranch .. :: _, _ => .stuck [.keyword .elseWord]
  | .group :: _, _ => .stuck [.closeParen]
  -- Behind a comma, arguments and items are told apart only by a closing token.
  | .call _ [] :: _, _ => .stuck [.comma, .closeParen]
  | .call .. :: _, .closeBracket => .stuck [.comma, .closeParen]
  | .array _ [] :: _, _ => .stuck [.comma, .closeBracket]
  | .array .. :: _, .closeParen => .stuck [.comma, .closeBracket]
  | .call .. :: _, _ | .array .. :: _, _ => .stuck [.comma, .closeParen, .closeBracket]
  | .field .. :: _, _ => .stuck [.comma, .closeBrace]
  | _ :: _, _ => .stuck exprEnds

def stepOperator (operand : Expr) (frames : List Frame) (token : Token) : Outcome :=
  let operator := BinaryOperator.ofLexeme token.lexeme
  let infixed (least : Nat) : Outcome :=
    let (left, frames) := closeOperators least operand frames
    .next ⟨.operand, .binary operator left :: frames⟩
  match token.terminal with
  | .dot => .next ⟨.accessName operand, frames⟩
  | .openParen => .next ⟨.operand, .call operand [] :: frames⟩
  | .product | .sum | .conjunction | .disjunction | .merge => infixed operator.level
  | .comparison =>
      -- Comparisons do not chain.
      match closeOperators (operator.level + 1) operand frames with
      | (left, .binary other before :: frames) =>
          if other.level = operator.level then .stuck comparisonEnds
          else .next ⟨.operand, .binary operator left :: .binary other before :: frames⟩
      | (left, frames) => .next ⟨.operand, .binary operator left :: frames⟩
  | .equals => .stuck operandEnds
  | _ =>
      let (expr, frames) := closeExpr operand frames
      stepEnd expr frames token

def State.step (state : State) (token : Token) : Outcome :=
  let stuck : Outcome := .stuck state.accepted
  match state.mode with
  | .operand => stepOperand state.frames token
  | .operator operand _ => stepOperator operand state.frames token
  | .accessName target =>
      match token.terminal with
      | .name | .string =>
          let access := Expr.access ⟨target.span.start, token.stop⟩ target (fieldNameOf token)
          .next ⟨.operator access true, state.frames⟩
      | _ => stuck
  | .letName start =>
      match token.terminal with
      | .name => .next ⟨.letEquals start token.lexeme, state.frames⟩
      | _ => stuck
  | .letEquals start name =>
      match token.terminal with
      | .equals => .next ⟨.operand, .letValue start name :: state.frames⟩
      | _ => stuck
  | .parameters start names =>
      match token.terminal with
      | .name => .next ⟨.parameters start (names ++ [token.lexeme]), state.frames⟩
      | .arrow => .next ⟨.operand, .functionBody start names :: state.frames⟩
      | _ => stuck
  | .importPath start =>
      match token.terminal with
      | .string => .operand (.importOf ⟨start, token.stop⟩ (stringValue token)) state.frames
      | _ => stuck
  | .fieldName =>
      match token.terminal, state.frames with
      | .name, _ | .string, _ =>
          .next ⟨.fieldEquals token.start (fieldNameOf token), state.frames⟩
      | .closeBrace, .record start fields :: frames =>
          .operand (.record ⟨start, token.stop⟩ fields) frames
      | _, _ => stuck
  | .fieldEquals start name =>
      match token.terminal, state.frames with
      | .equals, .record recordStart fields :: frames =>
          .next ⟨.operand, .field recordStart fields start name :: frames⟩
      | _, _ => .stuck [.equals]

end Parser

end ConfigGraph
