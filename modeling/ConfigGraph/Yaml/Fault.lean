import ConfigGraph.Error
import ConfigGraph.Text.Base64
import ConfigGraph.Text.Utf8
import ConfigGraph.Yaml.Place

/-!
# Faults of YAML documents

A fault is a code point that no document may hold, a problem at an offset, or a scalar that does not
read as its tag promises.
-/

namespace ConfigGraph.Yaml

/-- What a token is, without what it says. -/
inductive TokenKind where
  | directive | documentStart | documentEnd | streamEnd
  | blockSequenceStart | blockMappingStart | blockEnd
  | flowSequenceStart | flowMappingStart | flowSequenceEnd | flowMappingEnd
  | key | value | blockEntry | flowEntry
  | aliasOf | anchor | tag | scalar
  deriving DecidableEq

def TokenKind.name : TokenKind → Text
  | directive => "<directive>"
  | documentStart => "<document start>"
  | documentEnd => "<document end>"
  | streamEnd => "<stream end>"
  | blockSequenceStart => "<block sequence start>"
  | blockMappingStart => "<block mapping start>"
  | blockEnd => "<block end>"
  | flowSequenceStart => "["
  | flowMappingStart => "\x7b"
  | flowSequenceEnd => "]"
  | flowMappingEnd => "\x7d"
  | key => "?"
  | value => ":"
  | blockEntry => "-"
  | flowEntry => ","
  | aliasOf => "<alias>"
  | anchor => "<anchor>"
  | tag => "<tag>"
  | scalar => "<scalar>"

/-- What a node of a document is. -/
inductive NodeKind where
  | scalar | sequence | mapping
  deriving DecidableEq

def NodeKind.name : NodeKind → Text
  | scalar => "scalar"
  | sequence => "sequence"
  | mapping => "mapping"

/-- What can be wrong at an offset of a document.  Where a code point was found, nothing stands for
the end of the document. -/
inductive Problem where
  -- Tokens
  | cannotStartToken (found : CodePoint)
  | missingColon
  | sequenceEntryNotAllowed
  | mappingKeyNotAllowed
  | mappingValueNotAllowed
  | expectedWord (found : Option CodePoint)
  | expectedDigit (found : Option CodePoint)
  | expectedDigitOrPoint (found : Option CodePoint)
  | expectedDigitOrSpace (found : Option CodePoint)
  | expectedSpace (found : Option CodePoint)
  | expectedExclamation (found : Option CodePoint)
  | expectedClosingAngle (found : Option CodePoint)
  | expectedLineEnd (found : Option CodePoint)
  | expectedUri (found : Option CodePoint)
  | expectedUriEscape (found : Option CodePoint)
  | malformedUri (fault : Text.DecodeFault)
  | expectedIndicators (found : Option CodePoint)
  | zeroIndentation
  | expectedHexDigits (count : Nat) (found : Option CodePoint)
  | unknownEscape (found : Option CodePoint)
  | endInQuotes
  | separatorInQuotes
  -- Structure
  | expectedDocumentStart (found : TokenKind)
  | duplicateVersion
  | incompatibleVersion
  | duplicateHandle (handle : Text)
  | undefinedHandle (handle : Text)
  | expectedNode (found : TokenKind)
  | expectedBlockEnd (found : TokenKind)
  | expectedSequenceEnd (found : TokenKind)
  | expectedMappingEnd (found : TokenKind)
  | undefinedAlias (name : Text)
  | duplicateAnchor
  | anotherDocument
  -- Meaning
  | unknownTag (tag : Text)
  | unhashableKey
  | notScalar (found : NodeKind)
  | notSequence (found : NodeKind)
  | notMapping (found : NodeKind)
  | mergeOfNoMapping (found : NodeKind)
  | mergeOfNoMappings (found : NodeKind)
  | pairsOfNoSequence (found : NodeKind)
  | pairOfNoMapping (found : NodeKind)
  | pairOfItems (count : Nat)
  | notAscii (text : Text)
  | notBase64 (fault : Text.Base64Fault)
  deriving DecidableEq

namespace Problem

/-- A code point in quotes; the end of the document is shown as a null character. -/
def shown (found : Option CodePoint) : Text :=
  Text.quoted [found.getD default]

def shownKind (found : TokenKind) : Text := Text.quoted found.name

/-- A code point by its number. -/
def escaped (code : CodePoint) : Text :=
  if code.value < 0x100 then "\\x" ++ Text.padded 16 2 code.value
  else if code.value < 0x10000 then "\\u" ++ Text.padded 16 4 code.value
  else "\\U" ++ Text.padded 16 8 code.value

/-- What keeps a text from being ASCII: the first code points in a row that are not. -/
def nonAscii (text : Text) : Text :=
  let isAscii (code : CodePoint) : Bool := code.value < 0x80
  let start := (text.takeWhile isAscii).length
  let row := (text.drop start).takeWhile fun code => !isAscii code
  let place : Text :=
    match row with
    | [code] => "character '" ++ escaped code ++ "' in position " ++ Text.ofNat start
    | _ =>
        "characters in position " ++ Text.ofNat start ++ "-" ++ Text.ofNat (start + row.length - 1)
  "'ascii' codec can't encode " ++ place ++ ": ordinal not in range(128)"

/-- The words for a problem. -/
def message : Problem → Text
  | cannotStartToken found => "found character " ++ shown found ++ " that cannot start any token"
  | missingColon => "could not find expected ':'"
  | sequenceEntryNotAllowed => "sequence entries are not allowed here"
  | mappingKeyNotAllowed => "mapping keys are not allowed here"
  | mappingValueNotAllowed => "mapping values are not allowed here"
  | expectedWord found => "expected alphabetic or numeric character, but found " ++ shown found
  | expectedDigit found => "expected a digit, but found " ++ shown found
  | expectedDigitOrPoint found => "expected a digit or '.', but found " ++ shown found
  | expectedDigitOrSpace found => "expected a digit or ' ', but found " ++ shown found
  | expectedSpace found => "expected ' ', but found " ++ shown found
  | expectedExclamation found => "expected '!', but found " ++ shown found
  | expectedClosingAngle found => "expected '>', but found " ++ shown found
  | expectedLineEnd found => "expected a comment or a line break, but found " ++ shown found
  | expectedUri found => "expected URI, but found " ++ shown found
  | expectedUriEscape found =>
      "expected URI escape sequence of 2 hexadecimal numbers, but found " ++ shown found
  | malformedUri fault => fault.message
  | expectedIndicators found =>
      "expected chomping or indentation indicators, but found " ++ shown found
  | zeroIndentation => "expected indentation indicator in the range 1-9, but found 0"
  | expectedHexDigits count found =>
      "expected escape sequence of " ++ Text.ofNat count ++ " hexadecimal numbers, but found " ++
        shown found
  | unknownEscape found => "found unknown escape character " ++ shown found
  | endInQuotes => "found unexpected end of stream"
  | separatorInQuotes => "found unexpected document separator"
  | expectedDocumentStart found => "expected '<document start>', but found " ++ shownKind found
  | duplicateVersion => "found duplicate YAML directive"
  | incompatibleVersion => "found incompatible YAML document (version 1.* is required)"
  | duplicateHandle handle => "duplicate tag handle " ++ Text.quoted handle
  | undefinedHandle handle => "found undefined tag handle " ++ Text.quoted handle
  | expectedNode found => "expected the node content, but found " ++ shownKind found
  | expectedBlockEnd found => "expected <block end>, but found " ++ shownKind found
  | expectedSequenceEnd found => "expected ',' or ']', but got " ++ shownKind found
  | expectedMappingEnd found => "expected ',' or '\x7d', but got " ++ shownKind found
  | undefinedAlias name => "found undefined alias " ++ Text.quoted name
  | duplicateAnchor => "second occurrence"
  | anotherDocument => "but found another document"
  | unknownTag tag => "could not determine a constructor for the tag " ++ Text.quoted tag
  | unhashableKey => "found unhashable key"
  | notScalar found => "expected a scalar node, but found " ++ found.name
  | notSequence found => "expected a sequence node, but found " ++ found.name
  | notMapping found => "expected a mapping node, but found " ++ found.name
  | mergeOfNoMapping found => "expected a mapping for merging, but found " ++ found.name
  | mergeOfNoMappings found =>
      "expected a mapping or list of mappings for merging, but found " ++ found.name
  | pairsOfNoSequence found => "expected a sequence, but found " ++ found.name
  | pairOfNoMapping found => "expected a mapping of length 1, but found " ++ found.name
  | pairOfItems count =>
      "expected a single mapping item, but found " ++ Text.ofNat count ++ " items"
  | notAscii text => "failed to convert base64 data into ascii: " ++ nonAscii text
  | notBase64 fault => "failed to decode base64 data: " ++ fault.message

end Problem

/-- Why a text is no YAML document. -/
inductive Fault where
  /-- A code point that no document may hold. -/
  | unacceptable (code : CodePoint) (offset : Nat)
  | problem (problem : Problem) (offset : Nat)
  /-- A scalar, or a number in a directive, that is not what it promises to be. -/
  | scalar (fault : ScalarFault)
  /-- Reading the document did not end. -/
  | unending
  deriving DecidableEq

/-- Fails with a problem at a place. -/
def Place.fail {α : Type} (place : Place) (problem : Problem) : Except Fault α :=
  .error (.problem problem place.offset)

end ConfigGraph.Yaml
