import ConfigGraph.Document
import ConfigGraph.Proofs.Value.Rooted

/-!
# Data have no functions

The values that readers of JSON and YAML make are rooted in any documents, because there is no
function in them.  For YAML this goes through the graph of collections: whatever has been made at a
moment of the building leads to rooted values only.
-/

namespace ConfigGraph

variable {documents : List Document}

/-! ## JSON -/

namespace Value

mutual

theorem rooted_ofJson : (json : Json) → (ofJson json).Rooted documents
  | .null | .bool _ | .string _ => rooted_of_plain rfl rfl
  | .number number => rooted_ofNumber .json number
  | .array items => by
      rw [ofJson, rooted_array]
      exact rooted_ofJsonItems items
  | .object fields => by
      rw [ofJson, rooted_record]
      exact rooted_ofJsonFields fields

theorem rooted_ofJsonItems : (items : List Json) →
    ∀ item ∈ ofJsonItems items, item.Rooted documents
  | [] => List.forall_mem_nil _
  | json :: items => List.forall_mem_cons.mpr ⟨rooted_ofJson json, rooted_ofJsonItems items⟩

theorem rooted_ofJsonFields : (fields : List (Text × Json)) →
    Fields.Rooted documents (ofJsonFields fields)
  | [] => List.forall_mem_nil _
  | (_, json) :: fields => List.forall_mem_cons.mpr ⟨rooted_ofJson json, rooted_ofJsonFields fields⟩

end

end Value

/-! ## Graphs of containers -/

/-- What a link leads to outside of its graph is rooted. -/
def Link.Rooted (documents : List Document) (link : Link Value) : Prop :=
  ∀ outside, link.value? = some outside → outside.Rooted documents

theorem Link.rooted_value {outside : Value} :
    (Link.value outside).Rooted documents ↔ outside.Rooted documents := by
  constructor
  · intro rooted
    exact rooted outside rfl
  · intro rooted other isOther
    cases isOther
    exact rooted

theorem Link.rooted_node (index : Nat) : (Link.node index : Link Value).Rooted documents := by
  intro outside isOutside
  cases isOutside

/-- All links of a container are rooted. -/
def Layer.Rooted (documents : List Document) (layer : Layer Value (Link Value)) : Prop :=
  ∀ link ∈ layer.members, link.Rooted documents

namespace Graph

/-- All containers of a graph are rooted. -/
def Rooted (documents : List Document) (graph : Graph) : Prop :=
  ∀ layer ∈ graph.toList, layer.Rooted documents

theorem Rooted.push {graph : Graph} (rooted : Rooted documents graph)
    {layer : Layer Value (Link Value)} (layerRooted : layer.Rooted documents) :
    Rooted documents (graph.push layer) := by
  intro other member
  rw [Array.toList_push] at member
  rcases List.mem_append.mp member with isOld | isNew
  · exact rooted other isOld
  · cases List.mem_singleton.mp isNew
    exact layerRooted

theorem Rooted.set {graph : Graph} (rooted : Rooted documents graph) (index : Nat)
    {layer : Layer Value (Link Value)} (layerRooted : layer.Rooted documents) :
    Rooted documents (graph.setIfInBounds index layer) := by
  intro other member
  rw [Array.toList_setIfInBounds] at member
  rcases List.mem_or_eq_of_mem_set member with isOld | rfl
  · exact rooted other isOld
  · exact layerRooted

/-- All containers that are trees are rooted. -/
def TreesRooted (documents : List Document) (trees : Array (Option Value)) : Prop :=
  ∀ (index : Nat) (tree : Value), (trees[index]?).join = some tree → tree.Rooted documents

/-- What a partial function makes of the members of a list. -/
theorem mem_of_mapM {α β : Type} {transform : α → Option β} {items : List α} {images : List β}
    (mapped : items.mapM transform = some images) :
    ∀ image ∈ images, ∃ item ∈ items, transform item = some image := by
  induction items generalizing images with
  | nil =>
      cases mapped
      exact List.forall_mem_nil _
  | cons item items induction =>
      rw [List.mapM_cons] at mapped
      obtain ⟨first, isFirst, rest⟩ := Option.bind_eq_some_iff.mp mapped
      obtain ⟨others, areOthers, same⟩ := Option.bind_eq_some_iff.mp rest
      cases same
      refine List.forall_mem_cons.mpr ⟨⟨item, List.mem_cons_self, isFirst⟩, ?_⟩
      intro image isImage
      obtain ⟨other, isOther, isTransformed⟩ := induction areOthers image isImage
      exact ⟨other, List.mem_cons_of_mem _ isOther, isTransformed⟩

theorem rooted_linked? {trees : Array (Option Value)} (treesRooted : TreesRooted documents trees)
    {link : Link Value} (linkRooted : link.Rooted documents) {value : Value}
    (linked : linked? trees link = some value) : value.Rooted documents := by
  cases link with
  | value outside =>
      cases linked
      exact linkRooted _ rfl
  | node index => exact treesRooted index value linked

theorem rooted_tree? {trees : Array (Option Value)} (treesRooted : TreesRooted documents trees)
    {layer : Layer Value (Link Value)} (layerRooted : layer.Rooted documents) {tree : Value}
    (isTree : tree? trees layer = some tree) : tree.Rooted documents := by
  have linksRooted {links : List (Link Value)} {values : List Value}
      (rooted : ∀ link ∈ links, link.Rooted documents)
      (mapped : links.mapM (linked? trees) = some values) :
      ∀ value ∈ values, value.Rooted documents := by
    intro value isValue
    obtain ⟨link, isLink, linked⟩ := mem_of_mapM mapped value isValue
    exact rooted_linked? treesRooted (rooted link isLink) linked
  cases layer with
  | array items | tuple items | set items =>
      obtain ⟨values, mapped, rfl⟩ := Option.map_eq_some_iff.mp isTree
      exact Value.rooted_of_members rfl (linksRooted layerRooted mapped)
  | record fields =>
      obtain ⟨values, mapped, rfl⟩ := Option.map_eq_some_iff.mp isTree
      rw [Value.rooted_record]
      intro field isField
      obtain ⟨original, isOriginal, found⟩ := mem_of_mapM mapped field isField
      obtain ⟨value, linked, rfl⟩ := Option.map_eq_some_iff.mp found
      exact rooted_linked? treesRooted
        (layerRooted original.2 (List.mem_map_of_mem isOriginal)) linked

theorem treesRooted_settle {graph : Graph} (graphRooted : graph.Rooted documents)
    {trees : Array (Option Value)} (treesRooted : TreesRooted documents trees) :
    TreesRooted documents (settle graph trees) := by
  unfold settle
  -- The pass goes from the last container to the first.
  induction List.range graph.size with
  | nil => exact treesRooted
  | cons index indices induction =>
      rw [List.foldr_cons]
      generalize indices.foldr _ trees = later at induction ⊢
      split
      case h_1 layer _ isLayer =>
        intro other tree found
        rw [Array.getElem?_setIfInBounds] at found
        split at found
        · split at found
          · exact rooted_tree? induction (graphRooted layer (Array.mem_toList_iff.mpr
              (Array.mem_of_getElem? isLayer))) found
          · cases found
        · exact induction other tree found
      case h_2 => exact induction

theorem treesRooted_settleAll {graph : Graph} (graphRooted : graph.Rooted documents) (bound : Nat)
    {trees : Array (Option Value)} (treesRooted : TreesRooted documents trees) :
    TreesRooted documents (settleAll graph bound trees) := by
  induction bound generalizing trees with
  | zero => exact treesRooted
  | succ bound induction =>
      unfold settleAll
      dsimp only
      split
      · exact treesRooted
      · exact induction (treesRooted_settle graphRooted treesRooted)

theorem treesRooted_trees {graph : Graph} (graphRooted : graph.Rooted documents) :
    TreesRooted documents graph.trees := by
  apply treesRooted_settleAll graphRooted
  intro index tree found
  rw [Array.getElem?_replicate] at found
  split at found <;> cases found

end Graph

theorem Value.rooted_ofGraph {owner : Text} {graph : Graph} (graphRooted : graph.Rooted documents)
    {root : Link Value} (rootRooted : root.Rooted documents) :
    (ofGraph owner graph root).Rooted documents := by
  have treesRooted := Graph.treesRooted_trees graphRooted
  cases root with
  | value outside => exact rootRooted _ rfl
  | node index =>
      unfold ofGraph
      dsimp only
      split
      case h_1 tree isTree => exact treesRooted index tree isTree
      case h_2 =>
        apply rooted_of_members rfl
        intro member isMember
        obtain ⟨node, isNode, isOutside⟩ := List.mem_flatMap.mp isMember
        obtain ⟨layer, isLayer, rfl⟩ := List.mem_map.mp isNode
        obtain ⟨link, isLink, outside⟩ := List.mem_filterMap.mp isOutside
        obtain ⟨original, isOriginal, rfl⟩ := mem_members_map isLink
        cases original with
        | value inner =>
            exact graphRooted layer isLayer _ isOriginal member outside
        | node other =>
            dsimp only at outside
            split at outside
            case h_1 tree isTree =>
              cases outside
              exact treesRooted other _ isTree
            case h_2 => cases outside

end ConfigGraph
