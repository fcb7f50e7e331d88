import ConfigGraph.Position

/-!
# Tokens

The terminals of the configuration language, and tokens as pieces of a text.
-/

namespace ConfigGraph

/-- The reserved words. -/
inductive Keyword where
  | letWord | funWord | ifWord | importWord | trueWord | falseWord | nullWord
  | inWord | thenWord | elseWord
  deriving DecidableEq

/-- What a token is to the grammar. -/
inductive Terminal where
  | name | number | string
  | keyword (word : Keyword)
  | equals | comma | dot | arrow
  | openParen | closeParen | openBrace | closeBrace | openBracket | closeBracket
  | merge | disjunction | conjunction | comparison | sum | product | unary
  /-- The end of the document. -/
  | finish
  deriving DecidableEq

/-- A piece of a text that the grammar takes as one. -/
structure Token where
  terminal : Terminal
  /-- The code points of the token. -/
  lexeme : Text
  /-- The offset of the first of them. -/
  start : Nat
  deriving DecidableEq

namespace Token

def stop (token : Token) : Nat := token.start + token.lexeme.length

def span (token : Token) : Span := ⟨token.start, token.stop⟩

end Token

namespace Keyword

def all : List Keyword :=
  [letWord, funWord, ifWord, importWord, trueWord, falseWord, nullWord, inWord, thenWord, elseWord]

def spelling : Keyword → Text
  | letWord => "let"
  | funWord => "fun"
  | ifWord => "if"
  | importWord => "import"
  | trueWord => "true"
  | falseWord => "false"
  | nullWord => "null"
  | inWord => "in"
  | thenWord => "then"
  | elseWord => "else"

def ofSpelling? (word : Text) : Option Keyword := all.find? fun keyword => keyword.spelling = word

end Keyword

end ConfigGraph
