import ConfigGraph.Yaml.Token.Basic

/-!
# Events of YAML documents

The nodes of a document in the order in which they start, with the ends of collections and of
documents between them.
-/

namespace ConfigGraph.Yaml

/-- What is written before a node. -/
structure Properties where
  anchor : Option Text
  /-- The tag, unless it is left open. -/
  tag : Option Text
  /-- The offset at which the node starts. -/
  start : Nat

inductive Event where
  | documentStart (start : Nat)
  | documentEnd
  | aliasOf (name : Text) (start : Nat)
  /-- A scalar; the flag is set if its text tells what it is. -/
  | scalar (properties : Properties) (text : Text) (implicit : Bool)
  | sequenceStart (properties : Properties)
  | mappingStart (properties : Properties)
  /-- The end of the innermost collection. -/
  | collectionEnd

end ConfigGraph.Yaml
