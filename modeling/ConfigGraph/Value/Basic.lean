import ConfigGraph.Calendar
import ConfigGraph.Expr

/-!
# Values

What documents evaluate to.  Values are finite trees, except that aliases in a document can tie
containers into a cycle.  All containers of a document from which a cycle can be reached are kept
together as a `knot`: a list of nodes that refer to each other by index, and the index of the node
that the value stands for.  `Value.layer?` shows one level of any container, tied or not.

A float that is no number, and a function, remember their `Origin`, because they count as equal to
themselves inside containers.
-/

namespace ConfigGraph

/-- Where a value with an identity of its own comes from. -/
inductive Origin where
  /-- The one undefined number of all JSON documents. -/
  | json
  /-- The one undefined number of all YAML documents. -/
  | yaml
  /-- The outcome at one place in the evaluation of a document. -/
  | made (document : Text) (place : List Nat)
  deriving DecidableEq, Inhabited

/-- The text of a document and the path under which it was fetched. -/
structure Source where
  path : Text
  text : Text
  deriving DecidableEq, Inhabited

/-- One level of a container, over its keys and its members. -/
inductive Layer (κ : Type) (α : Type) where
  | array (items : List α)
  | tuple (items : List α)
  | set (items : List α)
  | record (fields : List (κ × α))

/-- A member of a node in a knot: a value outside, or another node of the knot. -/
inductive Link (α : Type) where
  | value (value : α)
  | node (index : Nat)

/-- A value. -/
inductive Value where
  | null
  | bool (value : Bool)
  | int (value : Int)
  /-- A float that is a number or infinite. -/
  | float (value : Float)
  /-- A float that is no number. -/
  | nan (origin : Origin)
  | text (value : Text)
  | bytes (value : List UInt8)
  | date (value : Date)
  | dateTime (value : DateTime)
  | array (items : List Value)
  | tuple (items : List Value)
  | set (items : List Value)
  | record (fields : List (Value × Value))
  /-- A function with the bindings visible where it was made, the latest first. -/
  | function (origin : Origin) (parameters : List Text) (body : Expr)
      (scope : List (Text × Value)) (source : Source)
  /-- A thing of the host that only its kind is known of. -/
  | foreign (kind : Text)
  /-- A node of a knot; the owner tells knots apart. -/
  | knot (owner : Text) (nodes : List (Layer Value (Link Value))) (index : Nat)
  deriving Inhabited

/-- The fields of a record, in order. -/
abbrev Fields := List (Value × Value)

/-- The bindings that an expression sees, the latest first. -/
abbrev Scope := List (Text × Value)

namespace Layer

def map {κ α β : Type} (transform : α → β) : Layer κ α → Layer κ β
  | array items => .array (items.map transform)
  | tuple items => .tuple (items.map transform)
  | set items => .set (items.map transform)
  | record fields => .record (fields.map fun field => (field.1, transform field.2))

def members {κ α : Type} : Layer κ α → List α
  | array items | tuple items | set items => items
  | record fields => fields.map (·.2)

/-- The name of the type of a container, in messages. -/
def typeName {κ α : Type} : Layer κ α → Text
  | array _ | tuple _ => "array"
  | set _ => "set"
  | record _ => "record"

end Layer

namespace Value

/-- The value of a number; the origin tells undefined floats apart. -/
def ofNumber (origin : Origin) : Number → Value
  | .int value => .int value
  | .float value => if Binary64.isNaN value then .nan origin else .float value

/-- The number that a value is, if it is one.  Booleans are no numbers. -/
def number? : Value → Option Number
  | int value => some (.int value)
  | float value => some (.float value)
  | nan _ => some (.float Binary64.nan)
  | _ => none

/-- The top level of a container. -/
def layer? : Value → Option (Layer Value Value)
  | array items => some (.array items)
  | tuple items => some (.tuple items)
  | set items => some (.set items)
  | record fields => some (.record fields)
  | knot owner nodes index =>
      nodes[index]?.map fun layer => layer.map fun
        | .value value => value
        | .node other => .knot owner nodes other
  | _ => none

/-- The fields of a record, tied or not. -/
def fields? (value : Value) : Option Fields :=
  match value.layer? with
  | some (.record fields) => some fields
  | _ => none

/-- The items of an array, tied or not. -/
def items? (value : Value) : Option (List Value) :=
  match value.layer? with
  | some (.array items) => some items
  | _ => none

/-- The name of the type of a value, in messages.  Integers and floats are both numbers, arrays and
tuples both arrays. -/
def typeName (value : Value) : Text :=
  match value with
  | null => "null"
  | bool _ => "bool"
  | int _ | float _ | nan _ => "number"
  | text _ => "string"
  | bytes _ => "bytes"
  | date _ => "date"
  | dateTime _ => "datetime"
  | function .. => "function"
  | foreign kind => kind
  | array _ | tuple _ | set _ | record _ | knot .. =>
      match value.layer? with
      | some layer => layer.typeName
      | none => "null"

end Value

end ConfigGraph
