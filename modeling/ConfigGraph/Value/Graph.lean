import ConfigGraph.Value.Basic

/-!
# Graphs of containers

Readers of documents build containers that refer to each other.  `Value.ofGraph` turns such a graph
into a value: containers that lead into no cycle become trees, the others nodes of one knot.
-/

namespace ConfigGraph

/-- Containers that refer to each other by index. -/
abbrev Graph := Array (Layer Value (Link Value))

namespace Graph

/-- The value of a member, if it is a value or a container that is a tree. -/
def linked? (trees : Array (Option Value)) : Link Value → Option Value
  | .value value => some value
  | .node index => (trees[index]?).join

/-- The tree of a container, if all its members are trees. -/
def tree? (trees : Array (Option Value)) : Layer Value (Link Value) → Option Value
  | .array items => (items.mapM (linked? trees)).map .array
  | .tuple items => (items.mapM (linked? trees)).map .tuple
  | .set items => (items.mapM (linked? trees)).map .set
  | .record fields =>
      (fields.mapM fun field => (linked? trees field.2).map fun value => (field.1, value)).map .record

/-- One pass over the containers from the last to the first. -/
def settle (graph : Graph) (trees : Array (Option Value)) : Array (Option Value) :=
  (List.range graph.size).foldr (fun index trees =>
    match trees[index]?, graph[index]? with
    | some none, some layer => trees.setIfInBounds index (tree? trees layer)
    | _, _ => trees) trees

/-- The number of containers that are trees. -/
def settled (trees : Array (Option Value)) : Nat := trees.countP Option.isSome

/-- Passes until no container becomes a tree any more. -/
def settleAll (graph : Graph) : Nat → Array (Option Value) → Array (Option Value)
  | 0, trees => trees
  | bound + 1, trees =>
      let next := settle graph trees
      if settled next = settled trees then trees else settleAll graph bound next

/-- The containers that lead into no cycle, as trees. -/
def trees (graph : Graph) : Array (Option Value) :=
  settleAll graph (graph.size + 1) (Array.replicate graph.size none)

end Graph

namespace Value

/-- The value of a member of a graph; the owner tells its knot from others. -/
def ofGraph (owner : Text) (graph : Graph) (root : Link Value) : Value :=
  let trees := graph.trees
  match root with
  | .value value => value
  | .node index =>
      match (trees[index]?).join with
      | some tree => tree
      | none =>
          let inner : Link Value → Link Value
            | .value value => .value value
            | .node other =>
                match (trees[other]?).join with
                | some tree => .value tree
                | none => .node other
          .knot owner (graph.toList.map (Layer.map inner)) index

end Value

end ConfigGraph
