import ConfigGraph.Value.Display

/-!
# Errors of a load

A load ends with a value or with one `LoadError`, which says what went wrong, with the details that
its message mentions, and where.  The wording of each code is a template; `LoadError.message` fills
it in and puts the location in front.
-/

namespace ConfigGraph

/-- The stage of a load to which an error belongs. -/
inductive ErrorKind where
  | encoding | parse | resolution | fetch | evaluation | serialization
  /-- An error of a host that names no stage. -/
  | general
  deriving DecidableEq, Inhabited

/-- What went wrong. -/
inductive ErrorCode where
  | importPathNotUtf8
  | unexpectedToken | invalidCharacter | unexpectedEnd | invalidEscape | parsingError
  | invalidJson | invalidYaml
  | cannotResolveImport | importNotFound | invalidFileUri
  | cannotFetchText | cannotReadFile | fileNotUtf8
  | unboundIdentifier | missingField | duplicateField | accessOnNonRecord
  | operatorTypeMismatch | unaryTypeMismatch | conditionNotBoolean | logicalOperandNotBoolean
  | divisionByZero | notAFunction | argumentCountMismatch | infiniteRecursion
  | unserializableValue | nonStringKey | cyclicValue
  deriving DecidableEq, Inhabited

/-- A piece of a message. -/
inductive Piece where
  | words (words : Text)
  /-- A detail as it is. -/
  | detail (name : Text)
  /-- A detail written out as a literal. -/
  | literal (name : Text)
  deriving DecidableEq

/-- The template of the message of a code. -/
def ErrorCode.template : ErrorCode → List Piece
  | importPathNotUtf8 =>
      [.words "Import path ", .literal "import_path", .words " is not valid utf-8."]
  | unexpectedToken => [.words "Syntax Error: Invalid syntax. ", .detail "details"]
  | invalidCharacter =>
      [.words "Syntax Error: Invalid character '", .detail "char", .words "' found."]
  | unexpectedEnd => [.words "Syntax Error: Unexpected end of file. ", .detail "details"]
  | invalidEscape =>
      [.words "Syntax Error: Invalid escape sequence '", .detail "escape",
        .words "' in string literal."]
  | parsingError =>
      [.words "Syntax Error: A general parsing error occurred. Details: ", .detail "details"]
  | invalidJson => [.words "Cannot parse JSON document: ", .detail "details"]
  | invalidYaml => [.words "Cannot parse YAML document: ", .detail "details"]
  | cannotResolveImport =>
      [.words "Cannot resolve import '", .detail "import_path", .words "': ", .detail "reason"]
  | importNotFound => [.words "Imported file not found: '", .detail "import_path", .words "'"]
  | invalidFileUri =>
      [.words "Cannot resolve import '", .detail "import_path", .words "': invalid file uri."]
  | cannotFetchText =>
      [.words "Cannot fetch '", .detail "resolved_path", .words "': ", .detail "reason"]
  | cannotReadFile =>
      [.words "Cannot fetch '", .detail "resolved_path", .words "': cannot read file."]
  | fileNotUtf8 =>
      [.words "Cannot fetch '", .detail "resolved_path",
        .words "': file contains invalid utf-8 characters."]
  | unboundIdentifier => [.words "Unbound identifier '", .detail "name", .words "'."]
  | missingField => [.words "Record has no field '", .detail "name", .words "'."]
  | duplicateField =>
      [.words "Field '", .detail "name", .words "' is defined more than once."]
  | accessOnNonRecord =>
      [.words "Cannot access field '", .detail "name", .words "' on a value of type '",
        .detail "provided", .words "'."]
  | operatorTypeMismatch =>
      [.words "The '", .detail "op", .words "' operator cannot be applied to '",
        .detail "left_type", .words "' and '", .detail "right_type", .words "'."]
  | unaryTypeMismatch =>
      [.words "The '", .detail "op", .words "' operator cannot be applied to '",
        .detail "provided", .words "'."]
  | conditionNotBoolean =>
      [.words "The condition of an 'if' expression must be a boolean, but got a '",
        .detail "provided", .words "'."]
  | logicalOperandNotBoolean =>
      [.words "The '", .detail "op",
        .words "' operator can only be used with boolean values, but got a '",
        .detail "provided", .words "'."]
  | divisionByZero => [.words "Division by zero."]
  | notAFunction => [.words "Cannot call a value of type '", .detail "provided", .words "'."]
  | argumentCountMismatch =>
      [.words "Function expects ", .detail "expected", .words " argument(s), but got ",
        .detail "provided", .words "."]
  | infiniteRecursion =>
      [.words "Infinite recursion: '", .detail "document",
        .words "' imports itself while being evaluated."]
  | unserializableValue =>
      [.words "Cannot serialize a value of type '", .detail "provided", .words "'."]
  | nonStringKey =>
      [.words "Cannot serialize a record key of type '", .detail "provided",
        .words "'; keys must be strings."]
  | cyclicValue =>
      [.words "Cannot serialize a value of type '", .detail "provided",
        .words "' that contains itself."]

/-- The details of an error, by name. -/
abbrev Details := List (Text × Value)

namespace Details

def get? (details : Details) (name : Text) : Option Value :=
  (details.find? fun detail => detail.1 = name).map (·.2)

end Details

namespace Piece

/-- The name of the detail that a piece needs but the details lack. -/
def missing? (details : Details) : Piece → Option Text
  | words _ => none
  | detail name | literal name => if (details.get? name).isNone then some name else none

/-- A piece with the details filled in. -/
def fill (details : Details) : Piece → Text
  | words given => given
  | detail name => ((details.get? name).map Value.display).getD []
  | literal name => ((details.get? name).map Value.literal).getD []

end Piece

/-- The first detail that a message lacks. -/
def ErrorCode.missing? (code : ErrorCode) (details : Details) : Option Text :=
  code.template.findSome? (Piece.missing? details)

/-- An error of a load. -/
structure LoadError where
  kind : ErrorKind
  code : ErrorCode
  /-- The document that the error is in, if it is known. -/
  path : Option Text
  /-- Where in the document. -/
  range : Option Range
  details : Details
  deriving Inhabited

namespace LoadError

def core (error : LoadError) : Text := error.code.template.flatMap (Piece.fill error.details)

/-- The message.  An empty path counts as none. -/
def message (error : LoadError) : Text :=
  match error.path with
  | none | some [] => error.core
  | some path =>
      match error.range with
      | none => "Error in '" ++ path ++ "': " ++ error.core
      | some range =>
          "Error in '" ++ path ++ "' (Line: " ++ Text.ofNat range.start.line ++ ", Character: " ++
            Text.ofNat range.start.character ++ "):\n" ++ error.core

/-- Gives a location to an error that has none; one that names a document keeps its own. -/
def locate (error : LoadError) (path : Text) (range : Option Range) : LoadError :=
  match error.path with
  | none => { error with path := some path, range }
  | some _ => error

/-- An error with textual details. -/
def ofTexts (kind : ErrorKind) (code : ErrorCode) (details : List (Text × Text))
    (path : Option Text) (range : Option Range) : LoadError :=
  ⟨kind, code, path, range, details.map fun detail => (detail.1, .text detail.2)⟩

end LoadError

/-- States that a correct load never reaches. -/
inductive InternalFault where
  /-- A path was given to the cache a second time. -/
  | duplicateDocument (path : Text)
  /-- A document was asked for that is not in the cache. -/
  | unknownDocument (path : Text)
  /-- An import was met in evaluation that nobody resolved. -/
  | unresolvedImport (owner : Text) (span : Option Span)
  deriving DecidableEq

def InternalFault.message : InternalFault → Text
  | .duplicateDocument path => "Document '" ++ path ++ "' was inserted into the cache twice."
  | .unknownDocument path => "Document '" ++ path ++ "' is not in the cache."
  | .unresolvedImport owner span =>
      let place : Text :=
        match span with
        | none => "None"
        | some span =>
            "Span(start=" ++ Text.ofNat span.start ++ ", end=" ++ Text.ofNat span.stop ++ ")"
      "Import at " ++ place ++ " in '" ++ owner ++ "' was never resolved."

/-- Scalars of documents that are not what they promise to be. -/
inductive ScalarFault where
  /-- The lower-case text is no boolean. -/
  | notBoolean (text : Text)
  /-- The text is no timestamp. -/
  | notTimestamp
  /-- A collection has the tag of a timestamp. -/
  | collectionAsTimestamp
  /-- The text is no integer in the base. -/
  | notInteger (text : Text) (base : Nat)
  | notFloat (text : Text)
  /-- There is no text to read a number from. -/
  | emptyNumber
  /-- A part of a date or time is out of range. -/
  | outOfCalendar (reason : Text)
  /-- An integer is too large for a float. -/
  | integerTooLarge
  /-- An escape names no code point. -/
  | noCodePoint
  /-- An escape names a number beyond machine integers. -/
  | codePointOverflow
  /-- An integer has so many digits that it is not read. -/
  | tooManyDigits (digits : Nat)
  deriving DecidableEq

/-- Failures that are no load errors. -/
inductive Fault where
  /-- The operator failed on its operands, and has no symbol to report it with. -/
  | operatorWithoutSymbol (operator : BinaryOperator)
  | overflow (overflow : Number.Overflow)
  | internal (fault : InternalFault)
  | misstep (misstep : Cursor.Misstep)
  | scalar (fault : ScalarFault)
  /-- An integer in an expression has so many digits that it is not read. -/
  | numberToken (digits : Nat)
  /-- The computation did not end within its depth. -/
  | unending

/-- How a part of a load can fail. -/
inductive Failure where
  | error (error : LoadError)
  | fault (fault : Fault)

end ConfigGraph
