import ConfigGraph.Number.Basic

/-!
# Plain data

The values that JSON can express: the content of JSON documents and the result of a load.
-/

namespace ConfigGraph

/-- Plain data; the fields of an object keep their order. -/
inductive Json where
  | null
  | bool (value : Bool)
  | number (value : Number)
  | string (value : Text)
  | array (items : List Json)
  | object (fields : List (Text × Json))
  deriving Inhabited

namespace Json

/-- Gives a key a value: in its old place if the key is there, at the end otherwise. -/
def put {α : Type} (key : Text) (value : α) : List (Text × α) → List (Text × α)
  | [] => [(key, value)]
  | field :: fields =>
      if field.1 = key then (field.1, value) :: fields else field :: put key value fields

def get? {α : Type} (key : Text) (fields : List (Text × α)) : Option α :=
  (fields.find? fun field => field.1 = key).map (·.2)

end Json

end ConfigGraph
