import ConfigGraph.Parser.State

/-!
# Parsing a document

`Parser.run` alternates between the lexer and the machine until the document is complete or a token
does not fit.  `parseExpr` adds that all string tokens must be well formed, and that no integer may
have more digits than are read.
-/

namespace ConfigGraph

/-- What can be wrong with a document. -/
inductive SyntaxFault where
  /-- A token that does not fit, with the terminals that would. -/
  | unexpected (expected : List Terminal) (found : Token)
  /-- A code point with which no token starts. -/
  | invalidCharacter (offset : Nat) (character : CodePoint)
  /-- A string token with an escape that does not exist. -/
  | invalidEscape (token : Token)
  /-- A number token that spells an integer with more digits than are read. -/
  | tooManyDigits (token : Token)

namespace Lexer

theorem length_skip_le (comment : Bool) (text : Text) : (skip comment text).length ≤ text.length := by
  induction text generalizing comment with
  | nil => cases comment <;> simp [skip]
  | cons code rest hypothesis =>
      cases comment with
      | true =>
          simp only [skip, List.length_cons]
          exact Nat.le_succ_of_le (hypothesis _)
      | false =>
          simp only [skip, List.length_cons]
          split
          · exact Nat.le_succ_of_le (hypothesis _)
          · split
            · exact Nat.le_succ_of_le (hypothesis _)
            · simp

theorem length_skipBlanks_le (text : Text) : (skipBlanks text).length ≤ text.length :=
  length_skip_le false text

end Lexer

namespace Parser

/-- Parses a text that starts at an offset, behind the tokens given in reverse order.  The result
lists all tokens in order. -/
def run (state : State) (tokens : List Token) (offset : Nat) (text : Text) :
    Except SyntaxFault (List Token × Expr) :=
  match _sized : Lexer.skipBlanks text with
  | [] =>
      let finish : Token := ⟨.finish, [], (tokens.head?.map Token.start).getD 0⟩
      match state.step finish with
      | .done expr => .ok (tokens.reverse, expr)
      | .next state => .error (.unexpected state.accepted finish)
      | .stuck expected => .error (.unexpected expected finish)
  | first :: rest =>
      let start := offset + (text.length - (rest.length + 1))
      match Lexer.match? (fun terminal => state.accepted.contains terminal) first rest with
      | none =>
          -- No terminal that fits: look for any, to say what was found.
          match Lexer.match? (fun _ => true) first rest with
          | none => .error (.invalidCharacter start first)
          | some (terminal, more) =>
              .error (.unexpected state.lexable ⟨terminal, first :: rest.take more, start⟩)
      | some (terminal, more) =>
          let token : Token := ⟨terminal, first :: rest.take more, start⟩
          match state.step token with
          | .done expr => .ok ((token :: tokens).reverse, expr)
          | .stuck expected => .error (.unexpected expected token)
          | .next state => run state (token :: tokens) token.stop (rest.drop more)
termination_by text.length
decreasing_by
  have bound := Lexer.length_skipBlanks_le text
  rw [_sized] at bound
  simp only [List.length_cons, List.length_drop] at bound ⊢
  omega

/-- Whether a token is a string whose escapes do not all exist. -/
def hasBadEscape (token : Token) : Bool :=
  token.terminal == .string && (Json.stringLiteral? token.lexeme).isNone

/-- Whether a token is an integer with more digits than are read. -/
def hasTooManyDigits (token : Token) : Bool :=
  token.terminal == .number && token.lexeme.all CodePoint.isDecimalDigit &&
    decide (Number.digitLimit < token.lexeme.length)

/-- What is wrong with a token by itself, if anything. -/
def faultOf? (token : Token) : Option SyntaxFault :=
  if hasBadEscape token then some (.invalidEscape token)
  else if hasTooManyDigits token then some (.tooManyDigits token)
  else none

end Parser

/-- The expression that a text is, if it is well formed.  The tokens are looked at one by one only
when all of them fit. -/
def parseExpr (text : Text) : Except SyntaxFault Expr :=
  match Parser.run .initial [] 0 text with
  | .error fault => .error fault
  | .ok (tokens, expr) =>
      match tokens.findSome? Parser.faultOf? with
      | some fault => .error fault
      | none => .ok expr

end ConfigGraph
