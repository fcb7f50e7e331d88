import ConfigGraph.Yaml.Fault

/-!
# Tokens of YAML documents

Tokens and their places, and sequences of them that may break off with a fault.
-/

namespace ConfigGraph.Yaml

/-- A tag as it is written. -/
inductive TagName where
  /-- A tag in full. -/
  | verbatim (tag : Text)
  /-- A handle and what follows it. -/
  | shorthand (handle suffix : Text)
  deriving DecidableEq

/-- A line that starts with a percent sign. -/
inductive Directive where
  | version (major minor : Nat)
  | tag (handle replacement : Text)
  | other (name : Text)
  deriving DecidableEq

/-- A token without its place. -/
inductive TokenBody where
  | directive (directive : Directive)
  | documentStart | documentEnd | streamEnd
  | blockSequenceStart | blockMappingStart | blockEnd
  | flowSequenceStart | flowMappingStart | flowSequenceEnd | flowMappingEnd
  | key | value | blockEntry | flowEntry
  | aliasOf (name : Text)
  | anchor (name : Text)
  | tag (name : TagName)
  /-- A scalar; the flag is set for one without quotes or indicator. -/
  | scalar (text : Text) (plain : Bool)
  deriving DecidableEq

def TokenBody.kind : TokenBody → TokenKind
  | directive _ => .directive
  | documentStart => .documentStart
  | documentEnd => .documentEnd
  | streamEnd => .streamEnd
  | blockSequenceStart => .blockSequenceStart
  | blockMappingStart => .blockMappingStart
  | blockEnd => .blockEnd
  | flowSequenceStart => .flowSequenceStart
  | flowMappingStart => .flowMappingStart
  | flowSequenceEnd => .flowSequenceEnd
  | flowMappingEnd => .flowMappingEnd
  | key => .key
  | value => .value
  | blockEntry => .blockEntry
  | flowEntry => .flowEntry
  | aliasOf _ => .aliasOf
  | anchor _ => .anchor
  | tag _ => .tag
  | scalar _ _ => .scalar

/-- A token and the offsets where it starts and where it ends. -/
structure Token where
  body : TokenBody
  start : Nat
  stop : Nat
  deriving DecidableEq

def Token.kind (token : Token) : TokenKind := token.body.kind

/-- A sequence that may break off with a fault. -/
inductive Feed (α : Type) where
  | done
  | broken (fault : Fault)
  | item (head : α) (rest : Feed α)

namespace Feed

/-- The items before a feed. -/
def prepend {α : Type} (items : List α) (feed : Feed α) : Feed α := items.foldr .item feed

def length {α : Type} : Feed α → Nat
  | done | broken _ => 0
  | item _ rest => rest.length + 1

/-- Passes the items to a function one after another, up to its first fault or that of the feed. -/
def fold {α σ : Type} (step : σ → α → Except Fault σ) (state : σ) : Feed α → Except Fault σ
  | done => .ok state
  | broken fault => .error fault
  | item head rest =>
      match step state head with
      | .error fault => .error fault
      | .ok next => rest.fold step next

end Feed

end ConfigGraph.Yaml
