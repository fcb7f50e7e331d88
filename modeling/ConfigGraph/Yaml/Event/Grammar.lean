import ConfigGraph.Yaml.Event.Basic

/-!
# From tokens to events

A machine with a stack of goals.  Every step meets the topmost goal with one event, after taking as
many tokens as that needs, and may put other goals on the stack.  `events` lists the events of a
sequence of tokens; a fault in the tokens shows only where they are needed.
-/

namespace ConfigGraph.Yaml

/-- What the grammar expects next. -/
inductive Goal where
  /-- The first document, which needs no separator. -/
  | firstDocument
  /-- A further document or the end. -/
  | document
  /-- What stands behind a separator; it may be empty. -/
  | documentContent
  | documentEnd
  /-- A node outside of flow collections. -/
  | blockNode
  | blockItem
  /-- An item of a sequence that is not indented further than the mapping around it. -/
  | indentlessItem
  | blockKey
  | blockValue
  | flowItem (first : Bool)
  /-- The parts of a pair that is an item of a flow sequence. -/
  | pairKey
  | pairValue
  | pairEnd
  | flowKey (first : Bool)
  | flowValue
  /-- The value of a key that no colon follows. -/
  | missingValue
  deriving DecidableEq

/-- The state of the machine. -/
structure Grammar where
  /-- The goals, the topmost first. -/
  goals : List Goal
  /-- What the handles of tags stand for. -/
  handles : List (Text × Text)
  tokens : Feed Token

namespace Grammar

/-- Steps of the machine. -/
abbrev Step := StateT Grammar (Except Fault)

/-- The handles that need no declaration. -/
def defaultHandles : List (Text × Text) := [("!", "!"), ("!!", "tag:yaml.org,2002:")]

/-- Fails with a problem at an offset. -/
def fail {α : Type} (problem : Problem) (offset : Nat) : Step α :=
  throw (.problem problem offset)

def peek : Step Token := do
  match (← get).tokens with
  | .item token _ => return token
  | .broken fault => throw fault
  | .done => throw .unending

def take : Step Token := do
  match (← get).tokens with
  | .item token rest =>
      modify fun grammar => { grammar with tokens := rest }
      return token
  | .broken fault => throw fault
  | .done => throw .unending

/-- Whether the next token is of one of some kinds. -/
def nextIs (kinds : List TokenKind) : Step Bool := do
  return kinds.contains (← peek).kind

/-- Puts a goal on the stack. -/
def push (goal : Goal) : Step Unit :=
  modify fun grammar => { grammar with goals := goal :: grammar.goals }

/-- The event of a scalar that is not written at all. -/
def emptyScalar (start : Nat) : Event := .scalar ⟨none, none, start⟩ [] true

/-- The anchor that the next token is, if it is one. -/
def takeAnchor? : Step (Option (Text × Nat)) := do
  match (← peek) with
  | ⟨.anchor name, start, _⟩ =>
      discard take
      return some (name, start)
  | _ => return none

/-- The tag that the next token is, if it is one. -/
def takeTag? : Step (Option (TagName × Nat)) := do
  match (← peek) with
  | ⟨.tag name, start, _⟩ =>
      discard take
      return some (name, start)
  | _ => return none

/-- A tag in full. -/
def resolveTag (name : TagName) (start : Nat) : Step Text := do
  match name with
  | .verbatim tag => return tag
  | .shorthand handle suffix =>
      match (← get).handles.find? fun entry => entry.1 = handle with
      | some (_, replacement) => return replacement ++ suffix
      | none => fail (.undefinedHandle handle) start

/-- The properties before a node, and whether its tag is written as a lone exclamation mark. -/
def readProperties : Step (Properties × Bool) := do
  let (anchor, tag) ← do
    match ← takeAnchor? with
    | some anchor => pure (some anchor, ← takeTag?)
    | none =>
        match ← takeTag? with
        | some tag => pure (← takeAnchor?, some tag)
        | none => pure (none, none)
  let start ←
    match anchor, tag with
    | some (_, start), some (_, other) => pure (min start other)
    | some (_, start), none | none, some (_, start) => pure start
    | none, none => return (⟨none, none, (← peek).start⟩, false)
  let name := anchor.map (·.1)
  match tag with
  | none => return (⟨name, none, start⟩, false)
  | some (written, tagStart) =>
      let tag ← resolveTag written tagStart
      if tag = Text.ofString "!" then return (⟨name, none, start⟩, true)
      return (⟨name, some tag, start⟩, false)

/-- Reads a node.  The flags say whether block collections are allowed, and whether a sequence may
go without indentation. -/
def readNode (block indentless : Bool) : Step Event := do
  match ← peek with
  | ⟨.aliasOf name, start, _⟩ =>
      discard take
      return .aliasOf name start
  | _ =>
      let (properties, isOpen) ← readProperties
      let token ← peek
      match token.body with
      | .scalar text plain =>
          discard take
          return .scalar properties text (properties.tag.isNone && (plain || isOpen))
      | .flowSequenceStart =>
          discard take
          push (.flowItem true)
          return .sequenceStart properties
      | .flowMappingStart =>
          discard take
          push (.flowKey true)
          return .mappingStart properties
      | body =>
          if indentless && body == .blockEntry then
            push .indentlessItem
            return .sequenceStart properties
          else if block && body == .blockSequenceStart then
            discard take
            push .blockItem
            return .sequenceStart properties
          else if block && body == .blockMappingStart then
            discard take
            push .blockKey
            return .mappingStart properties
          else if properties.anchor.isSome || properties.tag.isSome || isOpen then
            return .scalar properties [] properties.tag.isNone
          else fail (.expectedNode token.kind) token.start

/-- Reads the part of a collection behind a token, which may be missing; then the next goal follows.
It is missing before a token of one of some kinds. -/
def readPart (behind : Token) (missingBefore : List TokenKind) (next : Goal)
    (node : Step Event) : Step Event := do
  let missing ← nextIs missingBefore
  push next
  if missing then return emptyScalar behind.stop else node

/-- Reads a part of a collection that starts with a token of its own, or nothing. -/
def readMarkedPart (mark : TokenKind) (missingBefore : List TokenKind) (next : Goal)
    (node : Step Event) : Step Event := do
  if ← nextIs [mark] then readPart (← take) missingBefore next node
  else
    push next
    return emptyScalar (← peek).start

/-- The state of the directives before a document: whether a version was given, and the handles. -/
def readDirectives : Nat → Bool → List (Text × Text) → Step (List (Text × Text))
  | 0, _, handles => return handles
  | bound + 1, versioned, handles => do
      match ← peek with
      | ⟨.directive directive, start, _⟩ =>
          discard take
          match directive with
          | .version major _ =>
              if versioned then fail .duplicateVersion start
              else if major ≠ 1 then fail .incompatibleVersion start
              else readDirectives bound true handles
          | .tag handle replacement =>
              if handles.any fun entry => entry.1 == handle then fail (.duplicateHandle handle) start
              else readDirectives bound versioned (handles ++ [(handle, replacement)])
          | .other _ => readDirectives bound versioned handles
      | _ => return handles

/-- Takes the ends of documents that follow each other. -/
def skipDocumentEnds : Nat → Step Unit
  | 0 => return
  | bound + 1 => do
      if ← nextIs [.documentEnd] then
        discard take
        skipDocumentEnds bound

/-- Reads the start of a document that needs a separator; there is none at the end. -/
def readDocument : Step (Option Event) := do
  let bound := (← get).tokens.length + 1
  skipDocumentEnds bound
  if ← nextIs [.streamEnd] then return none
  let start := (← peek).start
  let handles ← readDirectives bound false []
  let token ← peek
  if token.kind ≠ .documentStart then fail (.expectedDocumentStart token.kind) token.start
  discard take
  modify fun grammar => { grammar with handles := handles ++ defaultHandles }
  push .documentEnd
  push .documentContent
  return some (.documentStart start)

/-- Reads the items of a block sequence. -/
def readBlockItem (missingBefore : List TokenKind) (goal : Goal) : Step Event := do
  readPart (← take) missingBefore goal (readNode true false)

/-- Reads the part of a flow collection behind its comma. -/
def readFlowPart (first : Bool) (closing : TokenKind) (problem : TokenKind → Problem)
    (part : Step Event) : Step Event := do
  let finish : Step Event := do
    discard take
    return .collectionEnd
  if ← nextIs [closing] then finish
  else
    if !first then
      let token ← peek
      if token.kind ≠ .flowEntry then fail (problem token.kind) token.start
      discard take
    if ← nextIs [closing] then finish else part

/-- Meets a goal, which has been taken from the stack, with an event.  Only the end of all documents
gives none. -/
def meet (goal : Goal) : Step (Option Event) := do
  match goal with
  | .firstDocument =>
      if ← nextIs [.directive, .documentStart, .streamEnd] then readDocument
      else
        modify fun grammar => { grammar with handles := defaultHandles }
        push .documentEnd
        push .blockNode
        return some (.documentStart (← peek).start)
  | .document => readDocument
  | .documentContent =>
      if ← nextIs [.directive, .documentStart, .documentEnd, .streamEnd] then
        return some (emptyScalar (← peek).start)
      else readNode true false
  | .documentEnd =>
      if ← nextIs [.documentEnd] then discard take
      push .document
      return some .documentEnd
  | .blockNode => readNode true false
  | .blockItem =>
      let token ← peek
      if token.kind = .blockEntry then readBlockItem [.blockEntry, .blockEnd] .blockItem
      else if token.kind = .blockEnd then
        discard take
        return some .collectionEnd
      else fail (.expectedBlockEnd token.kind) token.start
  | .indentlessItem =>
      if ← nextIs [.blockEntry] then
        readBlockItem [.blockEntry, .key, .value, .blockEnd] .indentlessItem
      else return some .collectionEnd
  | .blockKey =>
      let token ← peek
      if token.kind = .key then
        readPart (← take) [.key, .value, .blockEnd] .blockValue (readNode true true)
      else if token.kind = .blockEnd then
        discard take
        return some .collectionEnd
      else fail (.expectedBlockEnd token.kind) token.start
  | .blockValue =>
      readMarkedPart .value [.key, .value, .blockEnd] .blockKey (readNode true true)
  | .flowItem first =>
      readFlowPart first .flowSequenceEnd .expectedSequenceEnd do
        push (.flowItem false)
        let token ← peek
        if token.kind = .key then
          push .pairKey
          return .mappingStart ⟨none, none, token.start⟩
        else readNode false false
  | .pairKey =>
      readPart (← take) [.value, .flowEntry, .flowSequenceEnd] .pairValue (readNode false false)
  | .pairValue =>
      readMarkedPart .value [.flowEntry, .flowSequenceEnd] .pairEnd (readNode false false)
  | .pairEnd => return some .collectionEnd
  | .flowKey first =>
      readFlowPart first .flowMappingEnd .expectedMappingEnd do
        if ← nextIs [.key] then
          readPart (← take) [.value, .flowEntry, .flowMappingEnd] .flowValue (readNode false false)
        else
          push .missingValue
          readNode false false
  | .flowValue =>
      readMarkedPart .value [.flowEntry, .flowMappingEnd] (.flowKey false) (readNode false false)
  | .missingValue =>
      push (.flowKey false)
      return some (emptyScalar (← peek).start)

/-- The events from a state on.  The first argument bounds their number. -/
def eventsFrom : Nat → Grammar → Feed Event
  | 0, _ => .broken .unending
  | bound + 1, grammar =>
      match grammar.goals with
      | [] => .done
      | goal :: goals =>
          match (meet goal).run { grammar with goals } with
          | .error fault => .broken fault
          | .ok (none, _) => .done
          | .ok (some event, next) => .item event (eventsFrom bound next)

end Grammar

/-- The events of a sequence of tokens.  A token takes part in four events at most. -/
def events (tokens : Feed Token) : Feed Event :=
  Grammar.eventsFrom (4 * tokens.length + 8) ⟨[.firstDocument], [], tokens⟩

end ConfigGraph.Yaml
