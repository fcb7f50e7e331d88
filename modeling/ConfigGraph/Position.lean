import ConfigGraph.Text.Basic

/-!
# Positions of editors

Spans count code points from the start of a document.  Editors count lines and, within a line,
UTF-16 code units.  A `Cursor` walks over one text and only forwards; `Cursor.range?` maps spans
that come in increasing order, and `rangeOfSpan?` and `rangeAt` map a single span or offset.
-/

namespace ConfigGraph

/-- A half-open interval of code point offsets in a text. -/
structure Span where
  start : Nat
  stop : Nat
  deriving DecidableEq, Inhabited

/-- A line and a UTF-16 offset in it, both counted from zero. -/
structure Position where
  line : Nat
  character : Nat
  deriving DecidableEq, Inhabited

/-- Two positions. -/
structure Range where
  start : Position
  stop : Position
  deriving DecidableEq, Inhabited

namespace Position

def origin : Position := ⟨0, 0⟩

/-- The number of UTF-16 code units of a code point. -/
def width (code : CodePoint) : Nat := if 0xffff < code.value then 2 else 1

/-- The position behind a code point.  A carriage return takes no room. -/
def step (position : Position) (code : CodePoint) : Position :=
  if code = '\r' then position
  else if code = '\n' then ⟨position.line + 1, 0⟩
  else ⟨position.line, position.character + width code⟩

/-- The position behind a text that starts at a position. -/
def past (position : Position) (text : Text) : Position := text.foldl step position

end Position

namespace Range

/-- The range that stands in for a missing one. -/
def origin : Range := ⟨.origin, .origin⟩

/-- The empty range at a position. -/
def point (position : Position) : Range := ⟨position, position⟩

end Range

/-- A walk over a text, from its start to an offset. -/
structure Cursor where
  /-- The whole text. -/
  text : Text
  /-- The number of code points behind the cursor. -/
  offset : Nat
  position : Position
  deriving DecidableEq

namespace Cursor

/-- Offsets that a cursor cannot go to. -/
inductive Misstep where
  /-- The offset lies behind the cursor. -/
  | behind (offset : Int) (cursor : Nat)
  /-- The offset lies past the end of the text. -/
  | beyond (offset : Int) (length : Nat)
  deriving DecidableEq

def Misstep.message : Misstep → Text
  | .behind offset cursor =>
      "offset " ++ Text.ofInt offset ++ " is behind the cursor at " ++ Text.ofNat cursor
  | .beyond offset length =>
      "offset " ++ Text.ofInt offset ++ " is past the end of the text (" ++ Text.ofNat length ++ ")"

def ofText (text : Text) : Cursor := ⟨text, 0, .origin⟩

def advance (cursor : Cursor) (offset : Int) : Except Misstep Cursor :=
  if offset < cursor.offset then .error (.behind offset cursor.offset)
  else if Int.ofNat cursor.text.length < offset then
    .error (.beyond offset cursor.text.length)
  else
    let passed := (cursor.text.drop cursor.offset).take (offset.toNat - cursor.offset)
    .ok { cursor with offset := offset.toNat, position := cursor.position.past passed }

/-- The range between two offsets, and the cursor at the second.  If only the second cannot be
reached, the cursor stays at the first. -/
def between (cursor : Cursor) (start stop : Int) : Except Misstep Range × Cursor :=
  match cursor.advance start with
  | .error misstep => (.error misstep, cursor)
  | .ok atStart =>
      match atStart.advance stop with
      | .error misstep => (.error misstep, atStart)
      | .ok atStop => (.ok ⟨atStart.position, atStop.position⟩, atStop)

/-- The range of a span, and the cursor behind it.  Without a span the cursor stays where it is. -/
def range? (cursor : Cursor) : Option Span → Except Misstep Range × Cursor
  | none => (.ok .origin, cursor)
  | some span => cursor.between span.start span.stop

end Cursor

/-- The position of an offset, which is first brought into the text. -/
def positionAt (text : Text) (offset : Int) : Position :=
  Position.origin.past (text.take offset.toNat)

/-- The empty range at an offset, which is first brought into the text. -/
def rangeAt (text : Text) (offset : Int) : Range := .point (positionAt text offset)

/-- The range of a single span. -/
def rangeOfSpan? (text : Text) (span : Option Span) : Except Cursor.Misstep Range :=
  ((Cursor.ofText text).range? span).1

end ConfigGraph
