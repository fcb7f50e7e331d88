import ConfigGraph.Json.Basic
import ConfigGraph.Json.StringLiteral
import ConfigGraph.Number.Literal

/-!
# Reading JSON

`Json.decode` reads one JSON value with blanks around it.  Besides the standard it knows `NaN`,
`Infinity` and `-Infinity`.  A fault says at which code point it was noticed.
-/

namespace ConfigGraph.Json

/-- What can be wrong with a JSON text. -/
inductive Problem where
  | byteOrderMark
  | expectingValue
  | expectingName
  | expectingColon
  | expectingComma
  | extraData
  | unterminatedString
  | controlCharacter
  | unknownEscape
  | numericEscape
  /-- An integer has so many digits that it is not read. -/
  | tooManyDigits (digits : Nat)
  deriving DecidableEq

def Problem.message : Problem → Text
  | .byteOrderMark => "Unexpected UTF-8 BOM (decode using utf-8-sig)"
  | .expectingValue => "Expecting value"
  | .expectingName => "Expecting property name enclosed in double quotes"
  | .expectingColon => "Expecting ':' delimiter"
  | .expectingComma => "Expecting ',' delimiter"
  | .extraData => "Extra data"
  | .unterminatedString => "Unterminated string starting at"
  | .controlCharacter => "Invalid control character at"
  | .unknownEscape => "Invalid \\escape"
  | .numericEscape => "Invalid \\uXXXX escape"
  | .tooManyDigits digits => "Integer of " ++ Text.ofNat digits ++ " digits"

/-- A problem, and how many code points are left from where it was noticed. -/
structure Fault where
  problem : Problem
  left : Nat
  deriving DecidableEq

/-- The blanks between the tokens of JSON. -/
def isBlank (code : CodePoint) : Bool :=
  code == ' ' || code == '\t' || code == '\n' || code == '\r'

def skipBlanks (text : Text) : Text := text.dropWhile isBlank

def failAt {α : Type} (problem : Problem) (text : Text) : Except Fault α :=
  .error ⟨problem, text.length⟩

/-- Decodes a string behind its opening quote. -/
def readString (body : Text) : Except Fault (Text × Text) :=
  match decodeBody true body with
  | .ok result => .ok result
  | .error .unterminated => .error ⟨.unterminatedString, body.length + 1⟩
  | .error (.controlCharacter left) => .error ⟨.controlCharacter, left⟩
  | .error (.unknownEscape left) => .error ⟨.unknownEscape, left⟩
  | .error (.numericEscape left) => .error ⟨.numericEscape, left⟩

/-- The words with a meaning of their own. -/
def words : List (Text × Json) :=
  [("null", .null), ("true", .bool true), ("false", .bool false),
    ("NaN", .number (.float Binary64.nan)),
    ("Infinity", .number (.float (Binary64.infinity false))),
    ("-Infinity", .number (.float (Binary64.infinity true)))]

/-- The integer digits at the start of a text: a zero alone, or digits that do not start with
zero. -/
def wholeDigits (text : Text) : Text :=
  if text.head? = some '0' then text.take 1 else text.takeWhile CodePoint.isAsciiDigit

/-- The literal at the start of a text, and whether there is a minus sign in front of it. -/
def readLiteral? (text : Text) : Option ((Bool × Number.Literal) × Text) :=
  let negative := text.head? = some '-'
  let unsigned := if negative then text.drop 1 else text
  let whole := wholeDigits unsigned
  if whole = [] then none
  else
    let literal :=
      Number.Literal.after CodePoint.isAsciiDigit whole (unsigned.drop whole.length)
    some ((negative, literal), unsigned.drop literal.length)

/-- A word or a number at the start of a text. -/
def readScalar (text : Text) : Except Fault (Json × Text) :=
  match words.find? fun word => text.startsWith word.1 with
  | some (word, value) => .ok (value, text.drop word.length)
  | none =>
      match readLiteral? text with
      | some ((negative, literal), rest) =>
          if literal.isTooLong then failAt (.tooManyDigits literal.whole.length) text
          else .ok (.number (literal.value negative), rest)
      | none => failAt .expectingValue text

mutual

/-- Reads the value at the start of a text.  The first argument bounds how deep values, items and
fields are entered; twice the length of the text is more than enough. -/
def readValue : Nat → Text → Except Fault (Json × Text)
  | 0, text => failAt .expectingValue text
  | bound + 1, text =>
      match text with
      | [] => failAt .expectingValue text
      | code :: rest =>
          if code = '"' then (readString rest).map fun (value, behind) => (.string value, behind)
          else if code = '[' then
            let inner := skipBlanks rest
            if inner.head? = some ']' then .ok (.array [], inner.drop 1)
            else (readItems bound inner).map fun (items, behind) => (.array items, behind)
          else if code = '{' then
            let inner := skipBlanks rest
            if inner.head? = some '}' then .ok (.object [], inner.drop 1)
            else (readMembers bound [] inner).map fun (fields, behind) => (.object fields, behind)
          else readScalar text

/-- Reads the items of an array up to its closing bracket. -/
def readItems : Nat → Text → Except Fault (List Json × Text)
  | 0, text => failAt .expectingValue text
  | bound + 1, text => do
      let (item, behind) ← readValue bound text
      let rest := skipBlanks behind
      if rest.head? = some ']' then return ([item], rest.drop 1)
      else if rest.head? = some ',' then
        let (others, behind) ← readItems bound (skipBlanks (rest.drop 1))
        return (item :: others, behind)
      else failAt .expectingComma rest

/-- Reads the fields of an object up to its closing brace, after those that were read already. -/
def readMembers : Nat → List (Text × Json) → Text → Except Fault (List (Text × Json) × Text)
  | 0, _, text => failAt .expectingName text
  | bound + 1, fields, text => do
      if text.head? ≠ some '"' then failAt .expectingName text
      else
        let (name, behind) ← readString (text.drop 1)
        let rest := skipBlanks behind
        if rest.head? ≠ some ':' then failAt .expectingColon rest
        else
          let (member, behind) ← readValue bound (skipBlanks (rest.drop 1))
          let fields := put name member fields
          let rest := skipBlanks behind
          if rest.head? = some '}' then return (fields, rest.drop 1)
          else if rest.head? = some ',' then readMembers bound fields (skipBlanks (rest.drop 1))
          else failAt .expectingComma rest

end

/-- Reads a text that holds one value and blanks around it. -/
def decode (text : Text) : Except Fault Json :=
  if text.head? = CodePoint.ofNat? 0xfeff then failAt .byteOrderMark text
  else do
    let (result, behind) ← readValue (2 * text.length + 2) (skipBlanks text)
    let rest := skipBlanks behind
    if rest = [] then return result else failAt .extraData rest

/-- The offset of a fault in the text that was read. -/
def Fault.offset (fault : Fault) (text : Text) : Nat := text.length - fault.left

/-- The fault in words, with line, column and offset; lines and columns count from one. -/
def Fault.describe (fault : Fault) (text : Text) : Text :=
  let before := text.take (fault.offset text)
  let line := (before.filter fun code => code == CodePoint.ofChar '\n').length + 1
  let column := (before.reverse.takeWhile fun code => code != CodePoint.ofChar '\n').length + 1
  fault.problem.message ++ ": line " ++ Text.ofNat line ++ " column " ++ Text.ofNat column ++
    " (char " ++ Text.ofNat (fault.offset text) ++ ")"

end ConfigGraph.Json
