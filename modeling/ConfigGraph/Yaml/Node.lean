import ConfigGraph.Yaml.Event.Basic
import ConfigGraph.Yaml.Tag

/-!
# Nodes of YAML documents

The nodes of a document, numbered in the order in which they start.  Collections refer to their
parts by number, so that an alias can refer to a collection from inside.  `Composition.ofEvents`
builds the nodes of the only document in a sequence of events.
-/

namespace ConfigGraph.Yaml

/-- What a node holds; parts are given by their numbers. -/
inductive NodeContent where
  | scalar (text : Text)
  | sequence (items : List Nat)
  | mapping (pairs : List (Nat × Nat))

def NodeContent.kind : NodeContent → NodeKind
  | scalar _ => .scalar
  | sequence _ => .sequence
  | mapping _ => .mapping

structure Node where
  tag : Tag
  content : NodeContent
  /-- The offset at which it starts. -/
  start : Nat

abbrev Nodes := Array Node

/-- A collection whose end has not come yet. -/
structure OpenCollection where
  number : Nat
  /-- Its parts so far, the latest first. -/
  parts : List Nat

/-- The nodes of a document as far as it has been read. -/
structure Composition where
  nodes : Nodes
  /-- The nodes that aliases can refer to. -/
  anchors : List (Text × Nat)
  /-- The collections around the current place, the innermost first. -/
  around : List OpenCollection
  /-- The node of the whole document, once it is complete. -/
  root : Option Nat

namespace Composition

def empty : Composition := ⟨#[], [], [], none⟩

/-- Pairs of neighbours. -/
def pairUp : List Nat → List (Nat × Nat)
  | key :: value :: rest => (key, value) :: pairUp rest
  | _ => []

/-- Makes a complete node a part of the collection around it. -/
def attach (composition : Composition) (number : Nat) : Composition :=
  match composition.around with
  | [] => { composition with root := some number }
  | collection :: outer =>
      { composition with
        around := { collection with parts := number :: collection.parts } :: outer }

/-- Adds a node with its anchor, which must be new. -/
def add (composition : Composition) (properties : Properties) (tag : Tag)
    (content : NodeContent) : Except Fault Composition :=
  let number := composition.nodes.size
  let nodes := composition.nodes.push ⟨tag, content, properties.start⟩
  match properties.anchor with
  | none => .ok { composition with nodes }
  | some anchor =>
      if composition.anchors.any fun entry => entry.1 == anchor then
        .error (.problem .duplicateAnchor properties.start)
      else .ok { composition with nodes, anchors := (anchor, number) :: composition.anchors }

def enter (composition : Composition) (properties : Properties) (tag : Tag)
    (content : NodeContent) : Except Fault Composition := do
  let next ← composition.add properties tag content
  return { next with around := ⟨composition.nodes.size, []⟩ :: next.around }

/-- The content of a collection that is complete. -/
def complete (parts : List Nat) : NodeContent → NodeContent
  | .mapping _ => .mapping (pairUp parts)
  | _ => .sequence parts

def leave (composition : Composition) : Composition :=
  match composition.around with
  | [] => composition
  | collection :: outer =>
      let nodes := composition.nodes.modify collection.number fun node =>
        { node with content := complete collection.parts.reverse node.content }
      { composition with nodes, around := outer }.attach collection.number

def scalarTag (properties : Properties) (text : Text) (implicit : Bool) : Tag :=
  match properties.tag with
  | some name => .ofName name
  | none => if implicit then .ofScalar text else .str

def collectionTag (properties : Properties) (default : Tag) : Tag :=
  (properties.tag.map Tag.ofName).getD default

def step (composition : Composition) : Event → Except Fault Composition
  | .documentStart start =>
      if composition.root.isSome then .error (.problem .anotherDocument start) else .ok composition
  | .documentEnd => .ok composition
  | .aliasOf name start =>
      match composition.anchors.find? fun entry => entry.1 = name with
      | some (_, number) => .ok (composition.attach number)
      | none => .error (.problem (.undefinedAlias name) start)
  | .scalar properties text implicit => do
      let next ← composition.add properties (scalarTag properties text implicit) (.scalar text)
      return next.attach composition.nodes.size
  | .sequenceStart properties =>
      composition.enter properties (collectionTag properties .seq) (.sequence [])
  | .mappingStart properties =>
      composition.enter properties (collectionTag properties .map) (.mapping [])
  | .collectionEnd => .ok composition.leave

/-- The composition of the only document in a sequence of events. -/
def ofEvents (events : Feed Event) : Except Fault Composition := events.fold step .empty

end Composition

end ConfigGraph.Yaml
