import ConfigGraph.Yaml.Token.Basic

/-!
# The text of scalars

A scalar is plain, stands in quotes, or is a block of indented lines.  A plain or quoted scalar may
go over several lines, which are folded: a single line break becomes a space, and of several breaks
the first is dropped.
-/

namespace ConfigGraph.Yaml

/-- The line break that others count as. -/
def lineFeed : Text := "\n"

/-- What stands for the line breaks between two lines that are folded. -/
def foldBreaks (first others : Text) : Text :=
  if first = lineFeed then if others = [] then Text.ofString " " else others else first ++ others

/-! ## Plain scalars -/

/-- Whether a plain scalar ends before a code point. -/
def endsPlain (flow : Bool) (code : CodePoint) (next : Option CodePoint) : Bool :=
  isBlankOrBreak code ||
    (code == ':' && next.all fun code =>
      isBlankOrBreak code || (flow && isOneOf ",[]\x7b\x7d" code)) ||
    (flow && isOneOf ",?[]\x7b\x7d" code)

/-- The length of the word of a plain scalar at the start of a text. -/
def plainLength (flow : Bool) : Text → Nat
  | [] => 0
  | code :: rest => if endsPlain flow code rest.head? then 0 else plainLength flow rest + 1

/-- The line breaks between two lines of a plain scalar, with the spaces around them skipped.  There
are none if a separator of documents comes between.  The first argument bounds their number. -/
def plainBreaks : Nat → Place → Option Text × Place
  | 0, place => (some [], place)
  | bound + 1, place =>
      let behind := place.skipSpaces
      match behind.takeBreak with
      | ([], _) => (some [], behind)
      | (first, next) =>
          if next.atAnySeparator then (none, next)
          else
            let (others, last) := plainBreaks bound next
            (others.map (first ++ ·), last)

/-- What stands for the gap behind a word of a plain scalar, whether the line ends there, and the
place behind the gap.  The scalar ends where nothing stands for the gap. -/
def plainGap (place : Place) : Text × Bool × Place :=
  let (spaces, behind) := place.takeWhile (· == ' ')
  match behind.takeBreak with
  | ([], _) => (spaces, false, behind)
  | (first, next) =>
      if next.atAnySeparator then ([], true, next)
      else
        match plainBreaks (next.rest.length + 1) next with
        | (none, last) => ([], true, last)
        | (some others, last) => (foldBreaks first others, true, last)

/-- A plain scalar as far as it has been read. -/
structure Plain where
  text : Text
  /-- Whether a line ends behind the last word. -/
  endsLine : Bool
  stop : Nat
  /-- The place behind the gap that follows the last word. -/
  behind : Place

/-- Reads the words of a plain scalar.  What stands for the gap before the next word is given, and a
bound for the number of words. -/
def readPlainFrom (flow : Bool) (indent : Int) : Nat → Text → Plain → Plain
  | 0, _, plain => plain
  | bound + 1, gap, plain =>
      let place := plain.behind
      let length := if place.peek = some '#' then 0 else plainLength flow place.rest
      if length = 0 then plain
      else
        let behind := place.advance length
        let (nextGap, endsLine, next) := plainGap behind
        let extended : Plain :=
          ⟨plain.text ++ gap ++ place.rest.take length, endsLine, behind.offset, next⟩
        if nextGap = [] ∨ next.peek = some '#' ∨ (flow = false ∧ next.column < indent) then extended
        else readPlainFrom flow indent bound nextGap extended

/-- The plain scalar at a place.  Outside of flow collections it ends before a line that is indented
less. -/
def readPlain (flow : Bool) (indent : Int) (place : Place) : Plain :=
  readPlainFrom flow indent (place.rest.length + 1) [] ⟨[], false, place.offset, place⟩

/-! ## Quoted scalars -/

/-- The code points that an escape of one letter stands for. -/
def escapes : List (CodePoint × Nat) :=
  [('0', 0x00), ('a', 0x07), ('b', 0x08), ('t', 0x09), ('\t', 0x09), ('n', 0x0a), ('v', 0x0b),
    ('f', 0x0c), ('r', 0x0d), ('e', 0x1b), (' ', 0x20), ('"', 0x22), ('\\', 0x5c), ('/', 0x2f),
    ('N', 0x85), ('_', 0xa0), ('L', 0x2028), ('P', 0x2029)]

/-- The number of digits behind the letter of a numeric escape. -/
def escapeDigits : List (CodePoint × Nat) := [('x', 2), ('u', 4), ('U', 8)]

/-- The number that some hexadecimal digits at a place spell, or what stands in their way. -/
def hexNumber (count : Nat) (place : Place) : Except (Option CodePoint) Nat :=
  (List.range count).foldlM (fun number index =>
    match place.look index with
    | none => .error none
    | some code =>
        match code.hexDigit? with
        | some digit => .ok (number * 16 + digit)
        | none => .error (some code)) 0

/-- The code point that an escape names by its number. -/
def escapedCodePoint (number : Nat) : Except Fault CodePoint :=
  match CodePoint.ofNat? number with
  | some code => .ok code
  | none =>
      .error (.scalar (if 0x80000000 ≤ number then .codePointOverflow else .noCodePoint))

/-- The line breaks behind the first in a quoted scalar, with the blanks around them skipped. -/
def quotedBreaks : Nat → Place → Except Fault (Text × Place)
  | 0, place => .ok ([], place)
  | bound + 1, place =>
      if place.atAnySeparator then place.fail .separatorInQuotes
      else
        let behind := place.skipWhile isBlank
        match behind.takeBreak with
        | ([], _) => .ok ([], behind)
        | (first, next) => do
            let (others, last) ← quotedBreaks bound next
            return (first ++ others, last)

/-- Reads an escape behind its backslash. -/
def readEscape (place : Place) : Except Fault (Text × Place) :=
  match place.peek with
  | none => place.fail (.unknownEscape none)
  | some code =>
      match escapes.find? fun entry => entry.1 = code with
      | some (_, number) => do
          let meant ← escapedCodePoint number
          return ([meant], place.next)
      | none =>
          match escapeDigits.find? fun entry => entry.1 = code with
          | some (_, count) =>
              let digits := place.next
              match hexNumber count digits with
              | .error found => digits.fail (.expectedHexDigits count found)
              | .ok number => do
                  let meant ← escapedCodePoint number
                  return ([meant], digits.advance count)
          | none =>
              if isBreak code then quotedBreaks (place.rest.length + 1) place.takeBreak.2
              else place.fail (.unknownEscape code)

/-- The part of a quoted scalar up to the next blank, line break or closing quote.  The first
argument bounds its length. -/
def readQuotedRun (double : Bool) : Nat → Place → Except Fault (Text × Place)
  | 0, place => .ok ([], place)
  | bound + 1, place =>
      let onwards (read : Text) (next : Place) : Except Fault (Text × Place) := do
        let (others, last) ← readQuotedRun double bound next
        return (read ++ others, last)
      match place.rest with
      | [] => .ok ([], place)
      | code :: rest =>
          if isBlankOrBreak code then .ok ([], place)
          else if code = '\'' ∧ double = false then
            if rest.head? = some '\'' then onwards [code] (place.advance 2) else .ok ([], place)
          else if code = '"' ∧ double then .ok ([], place)
          else if code = '\\' ∧ double then do
            let (meant, next) ← readEscape place.next
            onwards meant next
          else onwards [code] place.next

/-- What stands for the blanks or line breaks at a place in a quoted scalar. -/
def readQuotedGap (place : Place) : Except Fault (Text × Place) :=
  let (blanks, behind) := place.takeWhile isBlank
  if behind.peek = none then behind.fail .endInQuotes
  else
    match behind.takeBreak with
    | ([], _) => .ok (blanks, behind)
    | (first, next) => do
        let (others, last) ← quotedBreaks (next.rest.length + 1) next
        return (foldBreaks first others, last)

/-- Reads a quoted scalar up to its closing quote.  The first argument bounds the number of its
parts. -/
def readQuotedFrom (double : Bool) : Nat → Place → Except Fault (Text × Place)
  | 0, place => place.fail .endInQuotes
  | bound + 1, place => do
      let (run, behind) ← readQuotedRun double (place.rest.length + 1) place
      if behind.peek = some (if double then '"' else '\'') then return (run, behind.next)
      let (gap, next) ← readQuotedGap behind
      let (others, last) ← readQuotedFrom double bound next
      return (run ++ gap ++ others, last)

/-- The scalar in quotes at a place. -/
def readQuoted (double : Bool) (place : Place) : Except Fault (Text × Place) :=
  readQuotedFrom double (place.rest.length + 1) place.next

/-! ## Block scalars -/

/-- What becomes of the line breaks at the end of a block. -/
inductive Chomping where
  /-- One is kept. -/
  | clip
  /-- None is kept. -/
  | strip
  /-- All are kept. -/
  | keep
  deriving DecidableEq

/-- The chomping that a code point stands for. -/
def Chomping.ofIndicator? (code : Option CodePoint) : Option Chomping :=
  if code = some '+' then some keep else if code = some '-' then some strip else none

/-- The indentation indicator at a place, if there is one. -/
def readIndentIndicator (place : Place) : Except Fault (Option Nat × Place) :=
  match (place.peek.filter CodePoint.isAsciiDigit).bind CodePoint.hexDigit? with
  | none => .ok (none, place)
  | some 0 => place.fail .zeroIndentation
  | some indent => .ok (some indent, place.next)

/-- The indicators of a block: chomping and indentation in any order. -/
def readBlockIndicators (place : Place) : Except Fault (Chomping × Option Nat × Place) := do
  let (chomping, increment, behind) ← match Chomping.ofIndicator? place.peek with
    | some chomping => do
        let (increment, behind) ← readIndentIndicator place.next
        pure (chomping, increment, behind)
    | none => do
        let (increment, behind) ← readIndentIndicator place
        match increment, Chomping.ofIndicator? behind.peek with
        | some _, some chomping => pure (chomping, increment, behind.next)
        | _, _ => pure (.clip, increment, behind)
  if behind.peek.all isSpaceOrBreak then return (chomping, increment, behind)
  behind.fail (.expectedIndicators behind.peek)

/-- Skips what is left of a line that may hold a comment only. -/
def skipLine (place : Place) : Except Fault Place :=
  let behind := place.skipSpaces.skipComment
  if behind.peek.all isBreak then .ok behind.takeBreak.2
  else behind.fail (.expectedLineEnd behind.peek)

/-- The empty lines at the start of a block, and the column that its spaces reach. -/
def blockIndentation : Nat → Place → Text × Nat × Place
  | 0, place => ([], 0, place)
  | bound + 1, place =>
      let behind := place.skipSpaces
      let reached := if behind.offset = place.offset then 0 else behind.column
      match behind.takeBreak with
      | ([], _) => ([], reached, behind)
      | (first, next) =>
          let (others, deepest, last) := blockIndentation bound next
          (first ++ others, max reached deepest, last)

/-- The empty lines between two lines of a block, and the place behind the indentation. -/
def blockBreaks (indent : Nat) : Nat → Place → Text × Place
  | 0, place => ([], place)
  | bound + 1, place =>
      let behind := place.skipSpacesBefore indent
      match behind.takeBreak with
      | ([], _) => ([], behind)
      | (first, next) =>
          let (others, last) := blockBreaks indent bound next
          (first ++ others, last)

/-- The lines of a block: their text, the line break at the end of the last, the breaks behind it,
and the place where the block ends. -/
structure BlockText where
  text : Text
  lineBreak : Text
  breaks : Text
  behind : Place

/-- Reads the lines of a block behind some empty lines. -/
def readBlockLines (folded : Bool) (indent : Nat) : Nat → Text → Place → BlockText
  | 0, breaks, place => ⟨[], [], breaks, place⟩
  | bound + 1, breaks, place =>
      if place.column = indent ∧ place.peek ≠ none then
        let (line, lineEnd) := place.takeWhile fun code => !isBreak code
        let (lineBreak, next) := lineEnd.takeBreak
        let (nextBreaks, behind) := blockBreaks indent (next.rest.length + 1) next
        if behind.column = indent ∧ behind.peek ≠ none then
          let joint : Text :=
            if folded && lineBreak == lineFeed && !place.peek.any isBlank && !behind.peek.any isBlank
            then if nextBreaks = [] then " " else []
            else lineBreak
          let others := readBlockLines folded indent bound nextBreaks behind
          { others with text := breaks ++ line ++ joint ++ others.text }
        else ⟨breaks ++ line, lineBreak, nextBreaks, behind⟩
      else ⟨[], [], breaks, place⟩

/-- The block scalar at a place inside a collection that is indented by some columns. -/
def readBlock (folded : Bool) (indent : Int) (place : Place) : Except Fault (Text × Place) := do
  let (chomping, increment, behind) ← readBlockIndicators place.next
  let start ← skipLine behind
  let least := (max (indent + 1) 1).toNat
  let bound := start.rest.length + 1
  let block :=
    match increment with
    | none =>
        let (breaks, deepest, first) := blockIndentation bound start
        readBlockLines folded (max least deepest) bound breaks first
    | some increment =>
        let column := least + increment - 1
        let (breaks, first) := blockBreaks column bound start
        readBlockLines folded column bound breaks first
  let ending : Text :=
    match chomping with
    | .clip => block.lineBreak
    | .strip => []
    | .keep => block.lineBreak ++ block.breaks
  return (block.text ++ ending, block.behind)

end ConfigGraph.Yaml
