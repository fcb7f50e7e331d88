import ConfigGraph.Value.Equality
import ConfigGraph.Value.Graph
import ConfigGraph.Yaml.Node
import ConfigGraph.Yaml.Scalar

/-!
# The data of YAML documents

`Nodes.value` turns the nodes of a document into a value.  Scalars are read at once; collections are
first made empty, so that others can refer to them, and filled in the order in which they were met.
Before a mapping is filled, the mappings that it merges are put in front of its own pairs.
-/

namespace ConfigGraph.Yaml

/-- What a collection is made into. -/
inductive Shape where
  | array | record | set | pairs
  deriving DecidableEq

/-- The data of a document as far as they have been made. -/
structure Building where
  nodes : Nodes
  /-- The collections made so far. -/
  graph : Graph
  /-- What the nodes became. -/
  made : Array (Option (Link Value))
  /-- Collections to be filled, in order: the node, what it is made into, and its place in the
  graph. -/
  waiting : List (Nat × Shape × Nat)

namespace Building

def start (nodes : Nodes) : Building := ⟨nodes, #[], Array.replicate nodes.size none, []⟩

def node (building : Building) (number : Nat) : Node :=
  building.nodes.getD number ⟨.null, .scalar [], 0⟩

/-- Fails with a problem at a node. -/
def fail {α : Type} (building : Building) (number : Nat) (problem : Problem) : Except Fault α :=
  .error (.problem problem (building.node number).start)

/-- The text of a node.  A mapping with a key for its value has the text of that.  The first argument
bounds how many mappings are passed. -/
def text (building : Building) : Nat → Nat → Except Fault Text
  | 0, _ => .error .unending
  | bound + 1, number =>
      match (building.node number).content with
      | .scalar text => .ok text
      | .sequence _ => building.fail number (.notScalar .sequence)
      | .mapping pairs =>
          match pairs.find? fun pair => (building.node pair.1).tag == .value with
          | some (_, value) => building.text bound value
          | none => building.fail number (.notScalar .mapping)

/-- The text of a node, whatever the number of mappings passed. -/
def textOf (building : Building) (number : Nat) : Except Fault Text :=
  building.text (building.nodes.size + 1) number

/-- A reading of a scalar as a step of the building. -/
def lift {α : Type} : Except ScalarFault α → Except Fault α
  | .ok value => .ok value
  | .error fault => .error (.scalar fault)

/-- The timestamp of a node, which must be a scalar itself. -/
def timestamp (building : Building) (number : Nat) : Except Fault Value := do
  discard (building.textOf number)
  match (building.node number).content with
  | .scalar text =>
      match Timestamp.parse? (Tag.withoutLineFeed text) with
      | none => .error (.scalar .notTimestamp)
      | some ⟨date, _, none⟩ => do
          lift (Timestamp.checkDate date)
          return .date date
      | some ⟨date, _, some time⟩ => return .dateTime (← lift (Timestamp.dateTime date time))
  | _ => .error (.scalar .collectionAsTimestamp)

/-- The bytes of a node. -/
def binary (building : Building) (number : Nat) : Except Fault Value := do
  let text ← building.textOf number
  if text.any fun code => 0x80 ≤ code.value then building.fail number (.notAscii text)
  else
    match Text.decodeBase64 text with
    | .ok bytes => return .bytes bytes
    | .error fault => building.fail number (.notBase64 fault)

/-- The float of a node; the owner tells undefined floats of documents apart. -/
def float (building : Building) (owner : Text) (number : Nat) : Except Fault Value := do
  let text ← building.textOf number
  if isSharedNaN text then return .nan .yaml
  return .ofNumber (.made owner [number]) (.float (← lift (readFloat text)))

def note (building : Building) (number : Nat) (link : Link Value) : Building :=
  { building with made := building.made.setIfInBounds number (some link) }

/-- Makes an empty collection for a node, to be filled later. -/
def enqueue (building : Building) (number : Nat) (shape : Shape) : Link Value × Building :=
  let index := building.graph.size
  let link := .node index
  (link, { building.note number link with
    graph := building.graph.push (.array [])
    waiting := building.waiting ++ [(number, shape, index)] })

/-- Makes the value of a node, or the collection that will be its value. -/
def make (owner : Text) (building : Building) (number : Nat) :
    Except Fault (Link Value × Building) :=
  match (building.made[number]?).join with
  | some link => .ok (link, building)
  | none =>
      let scalar (value : Except Fault Value) : Except Fault (Link Value × Building) := do
        let link := Link.value (← value)
        return (link, building.note number link)
      match (building.node number).tag with
      | .null => scalar (do discard (building.textOf number); return .null)
      | .bool => scalar (do return .bool (← lift (readBool (← building.textOf number))))
      | .int => scalar (do return .int (← lift (readInt (← building.textOf number))))
      | .float => scalar (building.float owner number)
      | .binary => scalar (building.binary number)
      | .timestamp => scalar (building.timestamp number)
      | .str => scalar (do return .text (← building.textOf number))
      | .omap | .pairs => .ok (building.enqueue number .pairs)
      | .set => .ok (building.enqueue number .set)
      | .seq => .ok (building.enqueue number .array)
      | .map => .ok (building.enqueue number .record)
      | tag => building.fail number (.unknownTag tag.name)

/-! ## Merging -/

def pairsOf (building : Building) (number : Nat) : List (Nat × Nat) :=
  match (building.node number).content with
  | .mapping pairs => pairs
  | _ => []

/-- Whether a pair asks for a merge. -/
def isMerge (building : Building) (pair : Nat × Nat) : Bool :=
  (building.node pair.1).tag == .merge

/-- Gives a mapping other pairs. -/
def setPairs (building : Building) (number : Nat) (pairs : List (Nat × Nat)) : Building :=
  { building with nodes := building.nodes.modify number fun node =>
      { node with content := .mapping pairs } }

/-- Makes keys that would stand for a value of their mapping ordinary texts. -/
def plainKeys (building : Building) (pairs : List (Nat × Nat)) : Building :=
  { building with nodes := pairs.foldl (fun nodes pair =>
      nodes.modify pair.1 fun node =>
        if node.tag = .value then { node with tag := .str } else node) building.nodes }

/-- The number of pairs that ask for a merge. -/
def mergeCount (building : Building) : Nat :=
  (List.range building.nodes.size).foldl
    (fun count number => count + (building.pairsOf number).countP building.isMerge) 0

/-- Puts the pairs of merged mappings in front of the pairs of a mapping.  A merged sequence of
mappings gives the pairs of its last mapping first.  The pairs merged so far are given.  The first
argument bounds the number of merges. -/
def flatten : Nat → Nat → List (Nat × Nat) → Building → Except Fault Building
  | 0, _, _, _ => .error .unending
  | bound + 1, number, merged, building =>
      let pairs := building.pairsOf number
      match pairs.find? building.isMerge with
      | none => .ok ((building.plainKeys pairs).setPairs number (merged ++ pairs))
      | some (_, source) => do
          let before := pairs.takeWhile fun pair => !building.isMerge pair
          let rest := building.setPairs number (before ++ pairs.drop (before.length + 1))
          let (added, next) ←
            match (rest.node source).content with
            | .mapping _ => do
                let next ← flatten bound source [] rest
                pure (next.pairsOf source, next)
            | .sequence items =>
                items.foldlM (fun (added, building) item =>
                  match (building.node item).content with
                  | .mapping _ => do
                      let next ← flatten bound item [] building
                      pure (next.pairsOf item ++ added, next)
                  | other => building.fail item (.mergeOfNoMapping other.kind)) ([], rest)
            | .scalar _ => rest.fail source (.mergeOfNoMappings .scalar)
          flatten bound number (merged ++ added) next

/-! ## Filling collections -/

/-- Fails unless the value can be a key. -/
def keyOf (building : Building) (number : Nat) : Link Value → Except Fault Value
  | .value key => .ok key
  | .node _ => building.fail number .unhashableKey

/-- Makes the items of a sequence. -/
def makeItems (owner : Text) : List Nat → Building → Except Fault (List (Link Value) × Building)
  | [], building => .ok ([], building)
  | item :: items, building => do
      let (link, next) ← building.make owner item
      let (links, last) ← makeItems owner items next
      return (link :: links, last)

/-- Makes the fields of a mapping.  A later field with the same key gives it another value. -/
def makeFields (owner : Text) (fields : List (Value × Link Value)) :
    List (Nat × Nat) → Building → Except Fault (List (Value × Link Value) × Building)
  | [], building => .ok (fields, building)
  | (keyNode, valueNode) :: pairs, building => do
      let (keyLink, behindKey) ← building.make owner keyNode
      let key ← behindKey.keyOf keyNode keyLink
      let (link, next) ← behindKey.make owner valueNode
      makeFields owner (Fields.put key link fields) pairs next

/-- Makes the fields of a node, which must be a mapping. -/
def fieldsOf (owner : Text) (building : Building) (number : Nat) :
    Except Fault (List (Value × Link Value) × Building) :=
  match (building.node number).content with
  | .mapping _ => do
      let next ← flatten (building.mergeCount + 1) number [] building
      makeFields owner [] (next.pairsOf number) next
  | other => building.fail number (.notMapping other.kind)

/-- Makes pairs of a key and a value from mappings with one pair each. -/
def makePairs (owner : Text) : List Nat → Building → Except Fault (List (Link Value) × Building)
  | [], building => .ok ([], building)
  | item :: items, building =>
      match (building.node item).content with
      | .mapping [(keyNode, valueNode)] => do
          let (key, behindKey) ← building.make owner keyNode
          let (value, next) ← behindKey.make owner valueNode
          let index := next.graph.size
          let made := { next with graph := next.graph.push (.tuple [key, value]) }
          let (links, last) ← makePairs owner items made
          return (.node index :: links, last)
      | .mapping pairs => building.fail item (.pairOfItems pairs.length)
      | other => building.fail item (.pairOfNoMapping other.kind)

/-- Makes the content of a collection. -/
def layer (owner : Text) (building : Building) (number : Nat) :
    Shape → Except Fault (Layer Value (Link Value) × Building)
  | .array => do
      match (building.node number).content with
      | .sequence items =>
          let (links, next) ← makeItems owner items building
          return (.array links, next)
      | other => building.fail number (.notSequence other.kind)
  | .record => do
      let (fields, next) ← building.fieldsOf owner number
      return (.record fields, next)
  | .set => do
      let (fields, next) ← building.fieldsOf owner number
      return (.set (fields.map fun field => .value field.1), next)
  | .pairs => do
      match (building.node number).content with
      | .sequence items =>
          let (links, next) ← makePairs owner items building
          return (.array links, next)
      | other => building.fail number (.pairsOfNoSequence other.kind)

/-- Fills the collections that wait, and those that come up meanwhile.  The first argument bounds
their number. -/
def fill (owner : Text) : Nat → Building → Except Fault Building
  | 0, building => .ok building
  | bound + 1, building =>
      match building.waiting with
      | [] => .ok building
      | (number, shape, index) :: waiting => do
          let (layer, next) ← { building with waiting }.layer owner number shape
          fill owner bound { next with graph := next.graph.setIfInBounds index layer }

end Building

/-- The value of a node; the owner names the document. -/
def Nodes.value (nodes : Nodes) (owner : Text) (root : Nat) : Except Fault Value := do
  let (link, building) ← (Building.start nodes).make owner root
  let filled ← building.fill owner (nodes.size + 1)
  return .ofGraph owner filled.graph link

end ConfigGraph.Yaml
