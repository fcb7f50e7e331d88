import ConfigGraph.Proofs.Value.Data

/-!
# Graphs as values

A container of a graph becomes a value that has the members of the container, each as the value that
it becomes itself.  So sharing between containers, and going around in a circle, are kept.
-/

namespace ConfigGraph

theorem Layer.map_id {κ α : Type} (layer : Layer κ α) : layer.map id = layer := by
  cases layer <;> simp [Layer.map]

theorem Layer.members_map {κ α β : Type} (transform : α → β) (layer : Layer κ α) :
    (layer.map transform).members = layer.members.map transform := by
  cases layer <;> simp [Layer.map, Layer.members]

theorem Layer.map_map {κ α β γ : Type} (first : α → β) (second : β → γ) (layer : Layer κ α) :
    (layer.map first).map second = layer.map (second ∘ first) := by
  cases layer <;> simp [Layer.map]

namespace Graph

variable {graph : Graph} {trees others : Array (Option Value)} {value : Link Value → Value}

/-- Members that are trees already have these trees as their values. -/
def Agrees (value : Link Value → Value) (trees : Array (Option Value)) : Prop :=
  ∀ link tree, linked? trees link = some tree → value link = tree

/-- A tree stands for a container of the graph: its members are the values of those of the
container. -/
def Grown (graph : Graph) (trees : Array (Option Value)) : Prop :=
  ∀ (index : Nat) (tree : Value), (trees[index]?).join = some tree →
    ∃ layer, graph[index]? = some layer ∧
      ∀ value, Agrees value trees → tree.layer? = some (layer.map value)

theorem map_of_mapM {α β : Type} {transform : α → Option β} {other : α → β} {items : List α}
    {images : List β} (mapped : items.mapM transform = some images)
    (agrees : ∀ item image, transform item = some image → other item = image) :
    images = items.map other := by
  induction items generalizing images with
  | nil =>
      cases mapped
      rfl
  | cons item items induction =>
      rw [List.mapM_cons] at mapped
      obtain ⟨first, isFirst, rest⟩ := Option.bind_eq_some_iff.mp mapped
      obtain ⟨images, areImages, same⟩ := Option.bind_eq_some_iff.mp rest
      cases same
      rw [List.map_cons, agrees item first isFirst, induction areImages]

theorem layer?_tree? {layer : Layer Value (Link Value)} {tree : Value}
    (isTree : tree? trees layer = some tree) (agrees : Agrees value trees) :
    tree.layer? = some (layer.map value) := by
  cases layer with
  | array links | tuple links | set links =>
      obtain ⟨values, mapped, rfl⟩ := Option.map_eq_some_iff.mp isTree
      rw [map_of_mapM mapped agrees]
      rfl
  | record fields =>
      obtain ⟨values, mapped, rfl⟩ := Option.map_eq_some_iff.mp isTree
      have agreesField (field : Value × Link Value) (image : Value × Value)
          (isImage : (linked? trees field.2).map (fun tree => (field.1, tree)) = some image) :
          (field.1, value field.2) = image := by
        obtain ⟨tree, isLinked, rfl⟩ := Option.map_eq_some_iff.mp isImage
        rw [agrees field.2 tree isLinked]
      rw [map_of_mapM mapped agreesField]
      rfl

theorem Agrees.of_fewer (agrees : Agrees value others)
    (kept : ∀ (index : Nat) (tree : Value), (trees[index]?).join = some tree →
      (others[index]?).join = some tree) :
    Agrees value trees := by
  intro link tree isLinked
  cases link with
  | value outside => exact agrees _ tree isLinked
  | node index => exact agrees _ tree (kept index tree isLinked)

theorem Grown.set (grown : Grown graph trees) {index : Nat} {layer : Layer Value (Link Value)}
    (isLayer : graph[index]? = some layer) (isNone : trees[index]? = some none) :
    Grown graph (trees.setIfInBounds index (tree? trees layer)) := by
  have kept (other : Nat) (tree : Value) (isTree : (trees[other]?).join = some tree) :
      ((trees.setIfInBounds index (tree? trees layer))[other]?).join = some tree := by
    rw [Array.getElem?_setIfInBounds]
    split
    case isTrue same =>
      rw [← same, isNone] at isTree
      cases isTree
    case isFalse => exact isTree
  intro other tree isTree
  rw [Array.getElem?_setIfInBounds] at isTree
  split at isTree
  case isTrue same =>
    subst same
    refine ⟨layer, isLayer, fun value agrees => ?_⟩
    split at isTree
    · exact layer?_tree? isTree (agrees.of_fewer kept)
    · cases isTree
  case isFalse =>
    obtain ⟨otherLayer, isOther, shows⟩ := grown other tree isTree
    exact ⟨otherLayer, isOther, fun value agrees => shows value (agrees.of_fewer kept)⟩

theorem grown_settle (grown : Grown graph trees) : Grown graph (settle graph trees) := by
  unfold settle
  -- The pass goes from the last container to the first.
  induction List.range graph.size with
  | nil => exact grown
  | cons index indices induction =>
      rw [List.foldr_cons]
      generalize indices.foldr _ trees = later at induction ⊢
      split
      case h_1 layer isNone isLayer => exact induction.set isLayer isNone
      case h_2 => exact induction

theorem grown_settleAll (grown : Grown graph trees) (bound : Nat) :
    Grown graph (settleAll graph bound trees) := by
  induction bound generalizing trees with
  | zero => exact grown
  | succ bound induction =>
      unfold settleAll
      dsimp only
      split
      · exact grown
      · exact induction (grown_settle grown)

theorem grown_trees (graph : Graph) : Grown graph graph.trees := by
  apply grown_settleAll
  intro index tree isTree
  rw [Array.getElem?_replicate] at isTree
  split at isTree <;> cases isTree

end Graph

namespace Value

theorem agrees_ofGraph (owner : Text) (graph : Graph) :
    Graph.Agrees (ofGraph owner graph) graph.trees := by
  intro link tree isLinked
  cases link with
  | value outside => exact Option.some.inj isLinked
  | node index =>
      change (graph.trees[index]?).join = some tree at isLinked
      simp only [ofGraph, isLinked]

/-- The members of a container in a graph become the members of its value. -/
theorem layer?_ofGraph (owner : Text) (graph : Graph) (index : Nat) :
    (ofGraph owner graph (.node index)).layer? =
      graph[index]?.map (Layer.map (ofGraph owner graph)) := by
  cases isTree : (graph.trees[index]?).join with
  | some tree =>
      obtain ⟨layer, isLayer, shows⟩ := graph.grown_trees index tree isTree
      rw [agrees_ofGraph owner graph (.node index) tree isTree, isLayer,
        shows _ (agrees_ofGraph owner graph), Option.map_some]
  | none =>
      simp only [ofGraph, isTree, layer?, List.getElem?_map, Array.getElem?_toList, Option.map_map]
      congr 1
      funext layer
      rw [Function.comp_apply, Layer.map_map]
      congr 1
      funext link
      cases link with
      | value outside => rfl
      | node other => cases isOther : (graph.trees[other]?).join <;> simp [ofGraph, isOther]

end Value

end ConfigGraph
