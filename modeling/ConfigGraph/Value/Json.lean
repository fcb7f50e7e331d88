import ConfigGraph.Error
import ConfigGraph.Json.Basic

/-!
# Values and plain data

`Value.ofJson` takes plain data as a value.  `Value.toJson` goes the other way, at the end of a
load: tuples and sets become arrays, bytes arrays of integers, dates texts; a function, an unknown
thing, a key that is no text, or a container inside itself is an error.
-/

namespace ConfigGraph

namespace Value

mutual

/-- Plain data as a value. -/
def ofJson : Json → Value
  | .null => .null
  | .bool value => .bool value
  | .number value => .ofNumber .json value
  | .string value => .text value
  | .array items => .array (ofJsonItems items)
  | .object fields => .record (ofJsonFields fields)

def ofJsonItems : List Json → List Value
  | [] => []
  | item :: items => ofJson item :: ofJsonItems items

def ofJsonFields : List (Text × Json) → Fields
  | [] => []
  | (name, value) :: fields => (.text name, ofJson value) :: ofJsonFields fields

end

/-- Why a value is no plain data. -/
inductive Obstacle where
  | unserializable (typeName : Text)
  | nonStringKey (typeName : Text)
  | cyclic (typeName : Text)
  deriving DecidableEq

def Obstacle.toError : Obstacle → LoadError
  | unserializable typeName =>
      .ofTexts .serialization .unserializableValue [("provided", typeName)] none none
  | nonStringKey typeName =>
      .ofTexts .serialization .nonStringKey [("provided", typeName)] none none
  | cyclic typeName => .ofTexts .serialization .cyclicValue [("provided", typeName)] none none

/-- The text that a key is. -/
def keyText : Value → Except Obstacle Text
  | .text value => .ok value
  | key => .error (.nonStringKey key.typeName)

/-- A member of a node of a knot whose outside values are plain data already. -/
abbrev PlainLink := Link (Except Obstacle Json)

/-- Unfolds a node of a knot into plain data.  The nodes that are being unfolded are active, and to
enter one of them again is an error; so the depth is bounded by the number of nodes. -/
def unfold (nodes : List (Layer (Except Obstacle Text) PlainLink)) :
    Nat → List Nat → Nat → Except Obstacle Json
  | 0, _, _ => .error (.cyclic [])
  | depth + 1, active, index =>
      match nodes[index]? with
      | none => .ok .null
      | some layer =>
          if active.contains index then .error (.cyclic layer.typeName)
          else
            let member : PlainLink → Except Obstacle Json
              | .value outcome => outcome
              | .node other => unfold nodes depth (index :: active) other
            match layer with
            | .array items | .tuple items | .set items => return .array (← items.mapM member)
            | .record fields => do
                let fields ← fields.mapM fun field => do
                  let name ← field.1
                  return (name, ← member field.2)
                return .object (fields.foldl (fun known field => Json.put field.1 field.2 known) [])

mutual

/-- A value as plain data. -/
def plain : Value → Except Obstacle Json
  | .null => .ok .null
  | .bool value => .ok (.bool value)
  | .int value => .ok (.number (.int value))
  | .float value => .ok (.number (.float value))
  | .nan _ => .ok (.number (.float Binary64.nan))
  | .text value => .ok (.string value)
  | .bytes value => .ok (.array (value.map fun byte => .number (.int byte.toNat)))
  | .date value => .ok (.string value.isoText)
  | .dateTime value => .ok (.string value.isoText)
  | .array items | .tuple items | .set items => return .array (← plainItems items)
  | .record fields => return .object (← plainFields [] fields)
  | .function .. => .error (.unserializable "function")
  | .foreign kind => .error (.unserializable kind)
  | .knot _ nodes index =>
      unfold (plainLayers nodes) (nodes.length + 1) [] index

def plainItems : List Value → Except Obstacle (List Json)
  | [] => .ok []
  | item :: items => do
      let item ← plain item
      return item :: (← plainItems items)

/-- The fields of a record as plain data, behind those that are done; a key comes before its
value. -/
def plainFields (done : List (Text × Json)) : Fields → Except Obstacle (List (Text × Json))
  | [] => .ok done
  | (key, value) :: fields => do
      let name ← keyText key
      let value ← plain value
      plainFields (Json.put name value done) fields

/-- The nodes of a knot with their outside values as plain data. -/
def plainLayers :
    List (Layer Value (Link Value)) → List (Layer (Except Obstacle Text) PlainLink)
  | [] => []
  | layer :: layers => plainLayer layer :: plainLayers layers

def plainLayer : Layer Value (Link Value) → Layer (Except Obstacle Text) PlainLink
  | .array items => .array (plainLinks items)
  | .tuple items => .tuple (plainLinks items)
  | .set items => .set (plainLinks items)
  | .record fields => .record (plainFieldLinks fields)

def plainLinks : List (Link Value) → List PlainLink
  | [] => []
  | link :: links => plainLink link :: plainLinks links

def plainFieldLinks : List (Value × Link Value) → List (Except Obstacle Text × PlainLink)
  | [] => []
  | (key, link) :: fields => (keyText key, plainLink link) :: plainFieldLinks fields

def plainLink : Link Value → PlainLink
  | .value value => .value (plain value)
  | .node index => .node index

end

/-- What a load gives to its host. -/
def toJson (value : Value) : Except LoadError Json := (plain value).mapError Obstacle.toError

end Value

end ConfigGraph
