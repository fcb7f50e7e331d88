import ConfigGraph.Parser.Basic

/-!
# The lexical grammar

`Lexeme` describes the texts that a terminal covers, and `Gap` the blanks and comments that may
stand between two tokens.  `Written` says how a row of tokens makes up a text.  None of these look
at what the parser expects; that a lexer guided by the parser finds exactly such tokens is shown
elsewhere.
-/

namespace ConfigGraph.Grammar

/-! ## Lexemes -/

/-- The texts of a terminal that is not a name, a number or a string. -/
def spellings : Terminal → List Text
  | .keyword word => [word.spelling]
  | .merge => ["&"]
  | .disjunction => ["||"]
  | .conjunction => ["&&"]
  | .comparison => ["==", "!=", "<=", ">=", "<", ">"]
  | .sum => ["++", "+", "-"]
  | .product => ["*", "/", "%"]
  | .unary => ["-", "!"]
  | .equals => ["="]
  | .arrow => ["=>"]
  | .comma => [","]
  | .dot => ["."]
  | .openParen => ["("]
  | .closeParen => [")"]
  | .openBrace => ["\x7b"]
  | .closeBrace => ["\x7d"]
  | .openBracket => ["["]
  | .closeBracket => ["]"]
  | .name | .number | .string | .finish => []

/-- A letter or underscore, then letters, underscores and digits. -/
inductive NameLexeme : Text → Prop where
  | intro {first : CodePoint} {more : Text} :
      Lexer.isNameStart first = true →
      (∀ code ∈ more, Lexer.isNamePart code = true) →
      NameLexeme (first :: more)

/-- At least one decimal digit. -/
structure Digits (text : Text) : Prop where
  nonempty : text ≠ []
  digit : ∀ code ∈ text, code.isDecimalDigit = true

/-- A point and digits, or nothing. -/
inductive Fraction : Text → Prop where
  | absent : Fraction []
  | present {digits : Text} : Digits digits → Fraction (CodePoint.ofChar '.' :: digits)

/-- An exponent with or without a sign, or nothing. -/
inductive Exponent : Text → Prop where
  | absent : Exponent []
  | unsigned {mark : CodePoint} {digits : Text} :
      Number.Literal.isExponentMark mark = true →
      Digits digits →
      Exponent (mark :: digits)
  | signed {mark sign : CodePoint} {digits : Text} :
      Number.Literal.isExponentMark mark = true →
      Number.Literal.isSign sign = true →
      Digits digits →
      Exponent (mark :: sign :: digits)

inductive NumberLexeme : Text → Prop where
  | intro {whole fraction exponent : Text} :
      Digits whole → Fraction fraction → Exponent exponent →
      NumberLexeme (whole ++ (fraction ++ exponent))

/-- What stands between the quotes of a string.  A backslash takes the next code point along, and no
line ends inside. -/
inductive StringBody : Text → Prop where
  | nil : StringBody []
  | plain {code : CodePoint} {rest : Text} :
      code ≠ '"' → code ≠ '\\' → code ≠ '\n' →
      StringBody rest →
      StringBody (code :: rest)
  | escape {code : CodePoint} {rest : Text} :
      code ≠ '\n' →
      StringBody rest →
      StringBody (CodePoint.ofChar '\\' :: code :: rest)

inductive StringLexeme : Text → Prop where
  | intro {body : Text} :
      StringBody body →
      StringLexeme (CodePoint.ofChar '"' :: (body ++ [CodePoint.ofChar '"']))

/-- The texts that a terminal covers. -/
def Lexeme : Terminal → Text → Prop
  | .name, text => NameLexeme text
  | .number, text => NumberLexeme text
  | .string, text => StringLexeme text
  | terminal, text => text ∈ spellings terminal

/-- A token whose code points are what its terminal covers. -/
def Genuine (token : Token) : Prop := Lexeme token.terminal token.lexeme

/-! ## Gaps -/

/-- Blanks and comments; a comment reaches to the end of its line. -/
inductive Gap : Text → Prop where
  | nil : Gap []
  | blank {code : CodePoint} {rest : Text} :
      Lexer.isBlank code = true →
      Gap rest →
      Gap (code :: rest)
  | comment {body rest : Text} :
      (∀ code ∈ body, code ≠ '\n') →
      Gap rest →
      Gap (CodePoint.ofChar '#' :: (body ++ CodePoint.ofChar '\n' :: rest))

/-- The gap at the end of a text, where the last comment needs no end of line. -/
inductive FinalGap : Text → Prop where
  | closed {text : Text} : Gap text → FinalGap text
  | comment {text body : Text} :
      Gap text →
      (∀ code ∈ body, code ≠ '\n') →
      FinalGap (text ++ CodePoint.ofChar '#' :: body)

/-- The text behind a token starts with a blank or a comment, or is empty. -/
inductive Delimited : Text → Prop where
  | nil : Delimited []
  | blank {code : CodePoint} {rest : Text} :
      Lexer.isBlank code = true →
      Delimited (code :: rest)
  | comment {rest : Text} : Delimited (CodePoint.ofChar '#' :: rest)

/-- `Written spaced offset tokens text`: the text consists of the tokens and of gaps, where the text
starts at an offset of a document.  If the tokens are spaced then every two neighbours have a blank
or a comment between them. -/
inductive Written (spaced : Bool) : Nat → List Token → Text → Prop where
  | finish {offset : Nat} {text : Text} : FinalGap text → Written spaced offset [] text
  | token {offset : Nat} {gap rest : Text} {token : Token} {tokens : List Token} :
      Gap gap →
      Genuine token →
      token.start = offset + gap.length →
      (spaced = true → Delimited rest) →
      Written spaced token.stop tokens rest →
      Written spaced offset (token :: tokens) (gap ++ (token.lexeme ++ rest))

/-- All tokens of a text are genuine. -/
theorem Written.genuine {spaced : Bool} {offset : Nat} {tokens : List Token} {text : Text}
    (written : Written spaced offset tokens text) : ∀ token ∈ tokens, Genuine token := by
  induction written with
  | finish _ =>
      intro token member
      cases member
  | token _ genuine _ _ _ induction =>
      intro other member
      rcases List.mem_cons.mp member with rfl | later
      · exact genuine
      · exact induction other later

/-! ## Lexemes are not empty -/

theorem Digits.head_isDigit {code : CodePoint} {rest : Text} (digits : Digits (code :: rest)) :
    code.isDecimalDigit = true :=
  digits.digit code List.mem_cons_self

theorem spellings_ne_nil {terminal : Terminal} {text : Text}
    (member : text ∈ spellings terminal) : text ≠ [] := by
  rintro rfl
  cases terminal with
  | keyword word => cases word <;> revert member <;> decide
  | _ => revert member; decide

theorem Lexeme.ne_nil {terminal : Terminal} {text : Text} (lexeme : Lexeme terminal text) :
    text ≠ [] := by
  cases terminal with
  | name =>
      cases lexeme
      exact List.cons_ne_nil _ _
  | number =>
      obtain ⟨whole, _, _⟩ := lexeme
      exact List.append_ne_nil_of_left_ne_nil whole.nonempty _
  | string =>
      cases lexeme
      exact List.cons_ne_nil _ _
  | _ => exact spellings_ne_nil lexeme

/-- The end of a text is no token of it. -/
theorem Genuine.ne_finish {token : Token} (genuine : Genuine token) :
    token.terminal ≠ .finish := by
  intro isFinish
  unfold Genuine at genuine
  rw [isFinish] at genuine
  cases genuine

end ConfigGraph.Grammar
