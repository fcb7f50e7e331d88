import ConfigGraph.Json.Basic
import ConfigGraph.Number.Literal

/-!
# Writing JSON

`Json.encode` writes plain data with one item a line and two spaces an indent, and `Json.encodeLine`
writes them on one line.  The text is ASCII: all other code points are escaped, those beyond the
basic plane as a pair of surrogates.

Integers with too many digits are not written.  `Json.draft` is what becomes of a value that is
written piece by piece: its text, or the pieces in front of the first such integer.
-/

namespace ConfigGraph.Json

/-- The escape with four hexadecimal digits. -/
def numericEscape (unit : Nat) : Text := "\\u" ++ Text.padded 16 4 unit

/-- One code point of a string as it is written. -/
def escape (code : CodePoint) : Text :=
  if code = '"' ∨ code = '\\' then ['\\', code]
  else if code = '\n' then "\\n"
  else if code = '\r' then "\\r"
  else if code = '\t' then "\\t"
  else if code.value = 8 then "\\b"
  else if code.value = 12 then "\\f"
  else if code.within 0x20 0x7e then [code]
  else if code.value < 0x10000 then numericEscape code.value
  else
    let offset := code.value - 0x10000
    numericEscape (0xd800 + offset / 0x400) ++ numericEscape (0xdc00 + offset % 0x400)

def encodeString (value : Text) : Text := "\"" ++ value.flatMap escape ++ "\""

/-- A number of any size; the floats that JSON does not know have names. -/
def encodeNumber : Number → Text
  | .int value => Text.ofInt value
  | .float value =>
      match Binary64.parts value with
      | .nan => "NaN"
      | .infinite negative => if negative then "-Infinity" else "Infinity"
      | .finite .. => Decimal.floatText value

/-- The start of a line at a depth. -/
def lineAt (depth : Nat) : Text := '\n' :: List.replicate (2 * depth) (' ' : CodePoint)

mutual

/-- Writes a value that stands at a depth. -/
def encodeAt (depth : Nat) : Json → Text
  | null => "null"
  | bool value => if value then "true" else "false"
  | number value => encodeNumber value
  | string value => encodeString value
  | array [] => "[]"
  | array (item :: items) =>
      "[" ++ lineAt (depth + 1) ++ encodeAt (depth + 1) item ++ encodeItems (depth + 1) items ++
        lineAt depth ++ "]"
  | object [] => "\x7b\x7d"
  | object ((name, value) :: fields) =>
      "\x7b" ++ lineAt (depth + 1) ++ encodeString name ++ ": " ++ encodeAt (depth + 1) value ++
        encodeFields (depth + 1) fields ++ lineAt depth ++ "\x7d"

/-- Writes the items of an array behind the first. -/
def encodeItems (depth : Nat) : List Json → Text
  | [] => []
  | item :: items => "," ++ lineAt depth ++ encodeAt depth item ++ encodeItems depth items

/-- Writes the fields of an object behind the first. -/
def encodeFields (depth : Nat) : List (Text × Json) → Text
  | [] => []
  | (name, value) :: fields =>
      "," ++ lineAt depth ++ encodeString name ++ ": " ++ encodeAt depth value ++
        encodeFields depth fields

end

/-- The whole text of a value, whatever the size of its integers. -/
def encode (value : Json) : Text := encodeAt 0 value

/-! ## Writing piece by piece -/

/-- Whether an integer has no more digits than are written. -/
def isWritable (value : Int) : Bool :=
  decide ((Text.ofNat value.natAbs).length ≤ Number.digitLimit)

/-- What is written of a text. -/
structure Draft where
  text : Text
  /-- Whether nothing of the text is missing. -/
  whole : Bool
  deriving DecidableEq

namespace Draft

/-- A text that is written as a whole. -/
def ofText (text : Text) : Draft := ⟨text, true⟩

/-- Nothing is written. -/
def nothing : Draft := ⟨[], false⟩

/-- Goes on with another text, unless something is missing already. -/
def append (first second : Draft) : Draft :=
  if first.whole then ⟨first.text ++ second.text, second.whole⟩ else first

instance : Append Draft := ⟨append⟩

end Draft

def draftNumber : Number → Draft
  | .int value => if isWritable value then .ofText (encodeNumber (.int value)) else .nothing
  | .float value => .ofText (encodeNumber (.float value))

/-- What is written of a text and the item behind it, which are one piece if the item is a
number. -/
def draftBehind (lead : Text) (item : Json) (draft : Draft) : Draft :=
  match item with
  | number _ => if draft.whole then .ofText (lead ++ draft.text) else .nothing
  | _ => .ofText lead ++ draft

mutual

/-- What is written of a value that stands at a depth. -/
def draftAt (depth : Nat) : Json → Draft
  | number value => draftNumber value
  | array (item :: items) =>
      draftBehind ("[" ++ lineAt (depth + 1)) item (draftAt (depth + 1) item) ++
        draftItems (depth + 1) items ++ .ofText (lineAt depth ++ "]")
  | object ((name, value) :: fields) =>
      .ofText ("\x7b" ++ lineAt (depth + 1) ++ encodeString name ++ ": ") ++
        draftAt (depth + 1) value ++ draftFields (depth + 1) fields ++
        .ofText (lineAt depth ++ "\x7d")
  | null => .ofText (encodeAt depth null)
  | bool value => .ofText (encodeAt depth (bool value))
  | string value => .ofText (encodeAt depth (string value))
  | array [] => .ofText (encodeAt depth (array []))
  | object [] => .ofText (encodeAt depth (object []))

/-- What is written of the items of an array behind the first. -/
def draftItems (depth : Nat) : List Json → Draft
  | [] => .ofText []
  | item :: items =>
      draftBehind ("," ++ lineAt depth) item (draftAt depth item) ++ draftItems depth items

/-- What is written of the fields of an object behind the first. -/
def draftFields (depth : Nat) : List (Text × Json) → Draft
  | [] => .ofText []
  | (name, value) :: fields =>
      .ofText ("," ++ lineAt depth ++ encodeString name ++ ": ") ++ draftAt depth value ++
        draftFields depth fields

end

/-- What is written of a value. -/
def draft (value : Json) : Draft := draftAt 0 value

mutual

/-- Writes a value on one line, without blanks. -/
def encodeLine : Json → Text
  | null => "null"
  | bool value => if value then "true" else "false"
  | number value => encodeNumber value
  | string value => encodeString value
  | array items => "[" ++ Text.join "," (encodeLines items) ++ "]"
  | object fields => "\x7b" ++ Text.join "," (encodeFieldLines fields) ++ "\x7d"

def encodeLines : List Json → List Text
  | [] => []
  | item :: items => encodeLine item :: encodeLines items

def encodeFieldLines : List (Text × Json) → List Text
  | [] => []
  | (name, value) :: fields =>
      (encodeString name ++ ":" ++ encodeLine value) :: encodeFieldLines fields

end

end ConfigGraph.Json
