import ConfigGraph.Yaml.Token.Directive

/-!
# Finding the tokens of YAML documents

Most tokens follow from the next code points.  Two rules look further.  Block collections start and
end with the indentation, so tokens without a text of their own mark that.  And a key of a mapping
is recognised by the colon behind it: whatever may turn out to be a key is remembered, the tokens
from there on are held back, and when the colon comes a key token is put in front of them.

`tokens` lists the tokens of a document.  A token comes before a fault only if it could be released
before the fault was met.
-/

namespace ConfigGraph.Yaml

/-- Something that may turn out to be a key. -/
structure SimpleKey where
  /-- The number of its first token. -/
  number : Nat
  /-- Whether it must be a key, as it starts a line of a block mapping. -/
  required : Bool
  /-- Where it starts. -/
  place : Place

/-- The state of the search for tokens. -/
structure Lexer where
  place : Place
  /-- The column of the innermost block collection. -/
  indent : Int
  /-- The columns of the block collections around it. -/
  outerIndents : List Int
  /-- What may turn out to be a key in the innermost flow collection. -/
  key : Option SimpleKey
  /-- The same for the collections around it, down to the block that they stand in. -/
  outerKeys : List (Option SimpleKey)
  /-- Whether a key may start here. -/
  allowKey : Bool
  /-- The number of tokens released. -/
  released : Nat
  pending : List Token
  finished : Bool

namespace Lexer

/-- The state at the start of a document. -/
def start (text : Text) : Lexer := ⟨.start text, -1, [], none, [], true, 0, [], false⟩

def inFlow (lexer : Lexer) : Bool := !lexer.outerKeys.isEmpty

/-- Adds a token that ends where the given place is, and goes there. -/
def emit (lexer : Lexer) (body : TokenBody) (behind : Place) : Lexer :=
  { lexer with
    place := behind
    pending := lexer.pending ++ [⟨body, lexer.place.offset, behind.offset⟩] }

/-- Adds a token without a text. -/
def emitEmpty (lexer : Lexer) (body : TokenBody) : Lexer := lexer.emit body lexer.place

/-- Adds a token of one code point. -/
def emitSign (lexer : Lexer) (body : TokenBody) : Lexer := lexer.emit body lexer.place.next

/-- A key stands on one line and is not longer than 1024 code points. -/
def isStale (lexer : Lexer) (key : SimpleKey) : Bool :=
  key.place.line != lexer.place.line || 1024 < lexer.place.offset - key.place.offset

/-- Gives up what can no longer be a key. -/
def dropStale (lexer : Lexer) : Except Fault Lexer :=
  if (lexer.key :: lexer.outerKeys).any fun key =>
      key.any fun key => lexer.isStale key && key.required then
    lexer.place.fail .missingColon
  else
    let fresh (key : Option SimpleKey) : Option SimpleKey := key.filter fun key => !lexer.isStale key
    .ok { lexer with key := fresh lexer.key, outerKeys := lexer.outerKeys.map fresh }

/-- Gives up what might be a key in the innermost collection. -/
def forgetKey (lexer : Lexer) : Except Fault Lexer :=
  if lexer.key.any (·.required) then lexer.place.fail .missingColon
  else .ok { lexer with key := none }

/-- Remembers that the next token may start a key. -/
def saveKey (lexer : Lexer) : Except Fault Lexer :=
  if lexer.allowKey then do
    let required := !lexer.inFlow && lexer.indent == lexer.place.column
    let lexer ← lexer.forgetKey
    return { lexer with
      key := some ⟨lexer.released + lexer.pending.length, required, lexer.place⟩ }
  else .ok lexer

/-- Sets whether a key may start at the place. -/
def allow (lexer : Lexer) (allowKey : Bool) : Lexer := { lexer with allowKey }

/-- The number of block collections that end before a column, and those that are left. -/
def closed (column : Int) : Int → List Int → Nat × Int × List Int
  | indent, [] => (0, indent, [])
  | indent, outer :: others =>
      if column < indent then
        let (count, rest) := closed column outer others
        (count + 1, rest)
      else (0, indent, outer :: others)

/-- Ends the block collections that are indented further than a column. -/
def unwind (lexer : Lexer) (column : Int) : Lexer :=
  if lexer.inFlow then lexer
  else
    let (count, indent, outerIndents) := closed column lexer.indent lexer.outerIndents
    (List.replicate count TokenBody.blockEnd).foldl emitEmpty { lexer with indent, outerIndents }

/-- Starts a block collection at a column, if there is none at that column yet. -/
def openBlock? (lexer : Lexer) (column : Int) : Option Lexer :=
  if lexer.indent < column then
    some { lexer with indent := column, outerIndents := lexer.indent :: lexer.outerIndents }
  else none

/-- Starts a block collection at the place outside of flow collections. -/
def openBlock (lexer : Lexer) (body : TokenBody) : Lexer :=
  if lexer.inFlow then lexer
  else
    match lexer.openBlock? lexer.place.column with
    | some opened => opened.emitEmpty body
    | none => lexer

/-- Skips blanks, line breaks and comments.  After a line break a key may start, but not in a flow
collection.  The first argument bounds the number of lines. -/
def skipLines : Nat → Lexer → Lexer
  | 0, lexer => lexer
  | bound + 1, lexer =>
      let behind := lexer.place.skipSpaces.skipComment
      match behind.takeBreak with
      | ([], _) => { lexer with place := behind }
      | (_, next) =>
          skipLines bound { lexer with place := next, allowKey := lexer.allowKey || !lexer.inFlow }

/-- Goes to the next token.  A byte order mark at the start of the document is skipped. -/
def skipToToken (lexer : Lexer) : Lexer :=
  let place := lexer.place
  let start :=
    if place.offset = 0 ∧ place.peek.any (·.value == 0xfeff) then place.next else place
  skipLines (start.rest.length + 1) { lexer with place := start }

def readEnd (lexer : Lexer) : Except Fault Lexer := do
  let lexer ← (lexer.unwind (-1)).forgetKey
  return { lexer.emitEmpty .streamEnd with
    allowKey := false, key := none, outerKeys := [], finished := true }

def readDirective (lexer : Lexer) : Except Fault Lexer := do
  let lexer ← (lexer.unwind (-1)).forgetKey
  let (directive, behind) ← Yaml.readDirective lexer.place
  return (lexer.allow false).emit (.directive directive) behind

def readSeparator (body : TokenBody) (lexer : Lexer) : Except Fault Lexer := do
  let lexer ← (lexer.unwind (-1)).forgetKey
  return (lexer.allow false).emit body (lexer.place.advance 3)

def readFlowStart (body : TokenBody) (lexer : Lexer) : Except Fault Lexer := do
  let lexer ← lexer.saveKey
  return { (lexer.allow true).emitSign body with
    key := none, outerKeys := lexer.key :: lexer.outerKeys }

/-- The end of a flow collection.  One that was never started is left to the grammar. -/
def readFlowEnd (body : TokenBody) (lexer : Lexer) : Except Fault Lexer := do
  let lexer ← lexer.forgetKey
  return { (lexer.allow false).emitSign body with
    key := lexer.outerKeys.head?.join, outerKeys := lexer.outerKeys.drop 1 }

def readFlowEntry (lexer : Lexer) : Except Fault Lexer := do
  return ((← lexer.forgetKey).allow true).emitSign .flowEntry

/-- A hyphen before an item of a block sequence. -/
def readBlockEntry (lexer : Lexer) : Except Fault Lexer :=
  if !lexer.inFlow && !lexer.allowKey then lexer.place.fail .sequenceEntryNotAllowed
  else do
    let lexer ← (lexer.openBlock .blockSequenceStart).forgetKey
    return (lexer.allow true).emitSign .blockEntry

/-- A question mark before a key. -/
def readKey (lexer : Lexer) : Except Fault Lexer :=
  if !lexer.inFlow && !lexer.allowKey then lexer.place.fail .mappingKeyNotAllowed
  else do
    let lexer ← (lexer.openBlock .blockMappingStart).forgetKey
    return (lexer.allow !lexer.inFlow).emitSign .key

/-- Puts tokens before the first token of a key. -/
def insertBefore (lexer : Lexer) (key : SimpleKey) (bodies : List TokenBody) : Lexer :=
  let index := key.number - lexer.released
  let tokens := bodies.map fun body => (⟨body, key.place.offset, key.place.offset⟩ : Token)
  { lexer with pending := lexer.pending.take index ++ tokens ++ lexer.pending.drop index }

/-- A colon before a value. -/
def readValue (lexer : Lexer) : Except Fault Lexer :=
  match lexer.key with
  | some key =>
      let lexer := { lexer with key := none, allowKey := false }
      let opened := if lexer.inFlow then none else lexer.openBlock? key.place.column
      match opened with
      | some opened =>
          .ok ((opened.insertBefore key [.blockMappingStart, .key]).emitSign .value)
      | none => .ok ((lexer.insertBefore key [.key]).emitSign .value)
  | none =>
      if !lexer.inFlow && !lexer.allowKey then lexer.place.fail .mappingValueNotAllowed
      else
        let lexer := lexer.openBlock .blockMappingStart
        .ok ((lexer.allow !lexer.inFlow).emitSign .value)

def readAnchor (body : Text → TokenBody) (lexer : Lexer) : Except Fault Lexer := do
  let lexer ← lexer.saveKey
  let (name, behind) ← Yaml.readAnchor lexer.place.next
  return (lexer.allow false).emit (body name) behind

def readTag (lexer : Lexer) : Except Fault Lexer := do
  let lexer ← lexer.saveKey
  let (name, behind) ← Yaml.readTag lexer.place
  return (lexer.allow false).emit (.tag name) behind

def readBlock (folded : Bool) (lexer : Lexer) : Except Fault Lexer := do
  let lexer ← lexer.forgetKey
  let (text, behind) ← Yaml.readBlock folded lexer.indent lexer.place
  return (lexer.allow true).emit (.scalar text false) behind

def readQuoted (double : Bool) (lexer : Lexer) : Except Fault Lexer := do
  let lexer ← lexer.saveKey
  let (text, behind) ← Yaml.readQuoted double lexer.place
  return (lexer.allow false).emit (.scalar text false) behind

def readPlain (lexer : Lexer) : Except Fault Lexer := do
  let lexer ← lexer.saveKey
  let plain := Yaml.readPlain lexer.inFlow (lexer.indent + 1) lexer.place
  return { lexer.allow plain.endsLine with
    place := plain.behind
    pending := lexer.pending ++ [⟨.scalar plain.text true, lexer.place.offset, plain.stop⟩] }

/-- Whether a plain scalar starts with a code point. -/
def startsPlain (flow : Bool) (first : CodePoint) (next : Option CodePoint) : Bool :=
  if isOneOf "-?:" first then
    !next.all isBlankOrBreak && (first == '-' || !flow)
  else !(isBlankOrBreak first || isOneOf ",[]\x7b\x7d#&*!|>'\"%@`" first)

/-- Reads the next token, together with the ends of block collections before it. -/
def read (lexer : Lexer) : Except Fault Lexer := do
  let lexer ← lexer.skipToToken.dropStale
  let place := lexer.place
  let lexer := lexer.unwind place.column
  match place.rest with
  | [] => lexer.readEnd
  | first :: rest =>
      let flow := lexer.inFlow
      let aloneInBlock := rest.head?.all isBlankOrBreak
      if first = '%' ∧ place.column = 0 then lexer.readDirective
      else if place.column = 0 ∧ place.atSeparator "---" then lexer.readSeparator .documentStart
      else if place.column = 0 ∧ place.atSeparator "..." then lexer.readSeparator .documentEnd
      else if first = '[' then lexer.readFlowStart .flowSequenceStart
      else if first = '{' then lexer.readFlowStart .flowMappingStart
      else if first = ']' then lexer.readFlowEnd .flowSequenceEnd
      else if first = '}' then lexer.readFlowEnd .flowMappingEnd
      else if first = ',' then lexer.readFlowEntry
      else if first = '-' ∧ aloneInBlock then lexer.readBlockEntry
      else if first = '?' ∧ (flow ∨ aloneInBlock) then lexer.readKey
      else if first = ':' ∧ (flow ∨ aloneInBlock) then lexer.readValue
      else if first = '*' then lexer.readAnchor .aliasOf
      else if first = '&' then lexer.readAnchor .anchor
      else if first = '!' then lexer.readTag
      else if first = '|' ∧ !flow then lexer.readBlock false
      else if first = '>' ∧ !flow then lexer.readBlock true
      else if first = '\'' then lexer.readQuoted false
      else if first = '"' then lexer.readQuoted true
      else if startsPlain flow first rest.head? then lexer.readPlain
      else place.fail (.cannotStartToken first)

/-- The number of the first token that may start a key. -/
def firstKey? (lexer : Lexer) : Option Nat :=
  ((lexer.key :: lexer.outerKeys).filterMap fun key => key.map (·.number)).min?

/-- The tokens that need not be held back any longer. -/
def release (lexer : Lexer) : List Token × Lexer :=
  let count :=
    match lexer.firstKey? with
    | none => lexer.pending.length
    | some number => number - lexer.released
  (lexer.pending.take count,
    { lexer with
      released := lexer.released + count
      pending := lexer.pending.drop count })

/-- The tokens from a state on.  The first argument bounds their number. -/
def tokensFrom : Nat → Lexer → Feed Token
  | 0, _ => .done
  | bound + 1, lexer =>
      match lexer.read with
      | .error fault => .broken fault
      | .ok next =>
          if next.finished then Feed.prepend next.pending .done
          else
            match next.dropStale with
            | .error fault => .broken fault
            | .ok current =>
                let (ready, later) := current.release
                Feed.prepend ready (tokensFrom bound later)

end Lexer

/-- The tokens of a document. -/
def tokens (text : Text) : Feed Token := Lexer.tokensFrom (text.length + 2) (.start text)

end ConfigGraph.Yaml
