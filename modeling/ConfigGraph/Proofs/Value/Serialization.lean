import ConfigGraph.Proofs.Value.FirstObstacle
import ConfigGraph.Proofs.Value.Graph

/-!
# Values become plain data

`Value.plain` keeps a list of the nodes of a knot that are being unfolded.  It gives the unfolding of
a clean value, and of any other value what is first in the way.
-/

namespace ConfigGraph

namespace Value

/-! ## Well-formed values -/

/-- A float is a number or infinite, a knot has the node that is meant, and a record has no key
twice. -/
structure Formed (value : Value) : Prop where
  isNumber : ∀ float, value = .float float → Binary64.isNaN float = false
  inRange : ∀ owner nodes index, value = .knot owner nodes index → index < nodes.length
  distinct : ∀ fields, value.layer? = some (.record fields) → Fields.Distinct fields

/-- A value is formed, and so are all values in it. -/
def WellFormed (value : Value) : Prop := ∀ inner, value.Reaches inner → inner.Formed

variable {ancestors : List Value} {value inner : Value}

theorem WellFormed.self (formed : value.WellFormed) : value.Formed := formed value .refl

theorem Formed.wellFormed (formed : value.Formed) (noLayer : value.layer? = none) :
    value.WellFormed := by
  intro inner reaches
  rcases reaches.cases_head with rfl | ⟨member, ⟨layer, isLayer, _⟩, _⟩
  · exact formed
  · rw [noLayer] at isLayer
    cases isLayer

theorem WellFormed.member (formed : value.WellFormed) (contains : value.Contains inner) :
    inner.WellFormed :=
  fun other reaches => formed other (.head contains reaches)

/-! ## Trees -/

theorem plainItems_eq_mapM (items : List Value) : plainItems items = items.mapM plain := by
  induction items with
  | nil => rfl
  | cons item items induction =>
      rw [plainItems, List.mapM_cons, induction]

theorem plainFields_eq_mapM (done : List (Text × Json)) (fields : Fields) :
    plainFields done fields = (do
      let named ← fields.mapM (entry plain)
      return named.foldl (fun known image => Json.put image.1 image.2 known) done) := by
  induction fields generalizing done with
  | nil => rfl
  | cons field fields induction =>
      rw [plainFields, List.mapM_cons, entry]
      cases keyText field.1 with
      | error obstacle => rfl
      | ok name =>
          cases plain field.2 with
          | error obstacle => rfl
          | ok json =>
              change plainFields (Json.put name json done) fields = _
              rw [induction]
              cases fields.mapM (entry plain) <;> rfl

theorem plain_eq_collect {layer : Layer Value Value} (isLayer : value.layer? = some layer)
    (untied : ∀ owner nodes index, value ≠ .knot owner nodes index) :
    plain value = collect plain layer := by
  cases value with
  | array items | tuple items | set items =>
      cases isLayer
      rw [plain, plainItems_eq_mapM]
      rfl
  | record fields =>
      cases isLayer
      rw [plain, plainFields_eq_mapM, collect]
      cases fields.mapM (entry plain) <;> rfl
  | knot owner nodes index => exact absurd rfl (untied owner nodes index)
  | null | bool | int | float | nan | text | bytes | date | dateTime | function | foreign =>
      cases isLayer

/-! ## Knots -/

/-- A member of a node, seen from outside of the knot. -/
def linked (owner : Text) (nodes : List (Layer Value (Link Value))) : Link Value → Value
  | .value value => value
  | .node index => .knot owner nodes index

theorem layer?_knot (owner : Text) (nodes : List (Layer Value (Link Value))) (index : Nat) :
    (knot owner nodes index).layer? = nodes[index]?.map (Layer.map (linked owner nodes)) := rfl

/-- The outcome of a member of a node, below some nodes that are being unfolded. -/
def follow (nodes : List (Layer Value (Link Value))) (depth : Nat) (active : List Nat) :
    Link Value → Except Obstacle Json
  | .value value => plain value
  | .node index => unfold (plainLayers nodes) depth active index

theorem plainLayers_eq_map (layers : List (Layer Value (Link Value))) :
    plainLayers layers = layers.map plainLayer := by
  induction layers with
  | nil => rfl
  | cons layer layers induction => rw [plainLayers, induction, List.map_cons]

theorem plainLinks_eq_map (links : List (Link Value)) : plainLinks links = links.map plainLink := by
  induction links with
  | nil => rfl
  | cons link links induction => rw [plainLinks, induction, List.map_cons]

theorem plainFieldLinks_eq_map (fields : List (Value × Link Value)) :
    plainFieldLinks fields = fields.map fun field => (keyText field.1, plainLink field.2) := by
  induction fields with
  | nil => rfl
  | cons field fields induction => rw [plainFieldLinks, induction, List.map_cons]

theorem unfold_succ {nodes : List (Layer Value (Link Value))} {index : Nat}
    {layer : Layer Value (Link Value)} (isNode : nodes[index]? = some layer) (depth : Nat)
    (active : List Nat) :
    unfold (plainLayers nodes) (depth + 1) active index =
      if active.contains index then .error (.cyclic layer.typeName)
      else collect (follow nodes depth (index :: active)) layer := by
  have isPlain : (plainLayers nodes)[index]? = some (plainLayer layer) := by
    rw [plainLayers_eq_map, List.getElem?_map, isNode, Option.map_some]
  rw [unfold, isPlain]
  cases layer with
  | array links | tuple links | set links =>
      simp only [plainLayer, plainLinks_eq_map, collect, List.mapM_map]
      congr 3
      funext link
      cases link <;> rfl
  | record fields =>
      simp only [plainLayer, plainFieldLinks_eq_map, collect, List.mapM_map]
      congr 3
      funext field
      obtain ⟨key, link⟩ := field
      cases link <;> rfl

/-! ## All values -/

/-- All nodes of a knot have the same weight, and members of containers that are in no knot with them
have less. -/
noncomputable def weight : Value → Nat
  | .knot _ nodes _ => sizeOf nodes
  | value => sizeOf value

theorem weight_le_sizeOf (value : Value) : weight value ≤ sizeOf value := by
  unfold weight
  split
  · rw [Value.knot.sizeOf_spec]
    omega
  · exact Nat.le_refl _

theorem sizeOf_lt_of_layer {α : Type} [SizeOf α] {layer : Layer Value α} {member : α}
    (isMember : member ∈ layer.members) : sizeOf member < sizeOf layer := by
  cases layer with
  | array items | tuple items | set items =>
      have smaller := List.sizeOf_lt_of_mem isMember
      simp only [Layer.members, Layer.array.sizeOf_spec, Layer.tuple.sizeOf_spec,
        Layer.set.sizeOf_spec] at smaller ⊢
      omega
  | record fields =>
      obtain ⟨⟨key, value⟩, isField, rfl⟩ := List.mem_map.mp isMember
      have smaller := List.sizeOf_lt_of_mem isField
      simp only [Layer.record.sizeOf_spec, Prod.mk.sizeOf_spec] at smaller ⊢
      omega

theorem weight_lt_of_link {nodes : List (Layer Value (Link Value))} {index : Nat}
    {layer : Layer Value (Link Value)} (isNode : nodes[index]? = some layer) {outside : Value}
    (isLink : .value outside ∈ layer.members) : weight outside < sizeOf nodes := by
  have inNodes := List.sizeOf_lt_of_mem (List.mem_of_getElem? isNode)
  have inLayer := sizeOf_lt_of_layer isLink
  have atMost := weight_le_sizeOf outside
  rw [Link.value.sizeOf_spec] at inLayer
  omega

theorem weight_lt_of_layer {layer : Layer Value Value} (isLayer : value.layer? = some layer)
    (untied : ∀ owner nodes index, value ≠ .knot owner nodes index)
    (isMember : inner ∈ layer.members) : weight inner < weight value := by
  have inLayer := sizeOf_lt_of_layer isMember
  have atMost := weight_le_sizeOf inner
  have own : weight value = sizeOf value := by
    unfold weight
    split
    case h_1 owner nodes index => exact absurd rfl (untied owner nodes index)
    case h_2 => rfl
  rw [own]
  cases value with
  | array | tuple | set | record =>
      cases isLayer
      simp only [Value.array.sizeOf_spec, Value.tuple.sizeOf_spec, Value.set.sizeOf_spec,
        Value.record.sizeOf_spec, Layer.array.sizeOf_spec, Layer.tuple.sizeOf_spec,
        Layer.set.sizeOf_spec, Layer.record.sizeOf_spec] at inLayer ⊢
      omega
  | knot owner nodes index => exact absurd rfl (untied owner nodes index)
  | null | bool | int | float | nan | text | bytes | date | dateTime | function | foreign =>
      cases isLayer

theorem typeName_of_layer? {layer : Layer Value Value} (isLayer : value.layer? = some layer) :
    value.typeName = layer.typeName := by
  cases value with
  | array | tuple | set | record =>
      cases isLayer
      rfl
  | knot => simp only [typeName, isLayer]
  | null | bool | int | float | nan | text | bytes | date | dateTime | function | foreign =>
      cases isLayer

section Knot

variable {owner : Text} {nodes : List (Layer Value (Link Value))} {active : List Nat}
  {outer : List Value}

theorem length_active_le (distinct : active.Nodup)
    (inRange : ∀ other ∈ active, other < nodes.length) : active.length ≤ nodes.length := by
  have subset : active ⊆ List.range nodes.length := fun other member =>
    List.mem_range.mpr (inRange other member)
  simpa using (distinct.subperm subset).length_le

theorem notMem_active {index : Nat} (isNew : index ∉ active)
    (outside : ∀ ancestor ∈ outer, sizeOf nodes < weight ancestor) :
    knot owner nodes index ∉ active.map (knot owner nodes) ++ outer := by
  intro old
  rcases List.mem_append.mp old with isActive | isOuter
  · obtain ⟨other, isActive, same⟩ := List.mem_map.mp isActive
    cases same
    exact isNew isActive
  · exact absurd (outside _ isOuter) (lt_irrefl _)

theorem weight_lt_active (less : weight inner < sizeOf nodes)
    (outside : ∀ ancestor ∈ outer, sizeOf nodes < weight ancestor) :
    ∀ ancestor ∈ active.map (knot owner nodes) ++ outer, weight inner < weight ancestor := by
  intro ancestor isAncestor
  rcases List.mem_append.mp isAncestor with isActive | isOuter
  · obtain ⟨other, _, rfl⟩ := List.mem_map.mp isActive
    exact less
  · exact less.trans (outside ancestor isOuter)

/-- Nodes that are being unfolded are active, each once, so the depth does not run out before there
is an end. -/
theorem describes_unfold (outside : ∀ ancestor ∈ outer, sizeOf nodes < weight ancestor)
    (lighter : ∀ {inner : Value} {ancestors : List Value}, weight inner < sizeOf nodes →
      inner.WellFormed → (∀ ancestor ∈ ancestors, weight inner < weight ancestor) →
      Describes ancestors inner (plain inner))
    (depth : Nat) (index : Nat) (distinct : active.Nodup)
    (inRange : ∀ other ∈ active, other < nodes.length)
    (enough : nodes.length < depth + active.length)
    (formed : (knot owner nodes index).WellFormed) :
    Describes (active.map (knot owner nodes) ++ outer) (knot owner nodes index)
      (unfold (plainLayers nodes) depth active index) := by
  induction depth generalizing active index with
  | zero =>
      have within := length_active_le distinct inRange
      omega
  | succ depth induction =>
      have isIndex : index < nodes.length := formed.self.inRange owner nodes index rfl
      have isNode : nodes[index]? = some nodes[index] := List.getElem?_eq_getElem isIndex
      have isLayer : (knot owner nodes index).layer? =
          some (nodes[index].map (linked owner nodes)) := by
        rw [layer?_knot, isNode, Option.map_some]
      rw [unfold_succ isNode]
      split
      -- A node that is active is an ancestor, and all other ancestors are too heavy to be it.
      case isTrue old =>
        have sameName : nodes[index].typeName = (knot owner nodes index).typeName := by
          rw [typeName_of_layer? isLayer]
          cases nodes[index] <;> rfl
        rw [sameName]
        have isActive : index ∈ active := List.contains_iff_mem.mp old
        exact describes_again isLayer (List.mem_append_left _ (List.mem_map_of_mem isActive))
      case isFalse notActive =>
        have isNew : index ∉ active := fun isActive =>
          notActive (List.contains_iff_mem.mpr isActive)
        refine describes_collect isLayer (notMem_active isNew outside) formed.self.distinct ?_
        change ∀ link ∈ nodes[index].members,
          Describes ((index :: active).map (knot owner nodes) ++ outer) _ _
        intro link isLink
        have isMember :
            linked owner nodes link ∈ (nodes[index].map (linked owner nodes)).members := by
          rw [Layer.members_map]
          exact List.mem_map_of_mem isLink
        have memberFormed := formed.member ⟨_, isLayer, isMember⟩
        cases link with
        | value inner =>
            have less := weight_lt_of_link isNode isLink
            exact lighter less memberFormed (weight_lt_active less outside)
        | node other =>
            refine induction other (List.nodup_cons.mpr ⟨isNew, distinct⟩)
              (List.forall_mem_cons.mpr ⟨isIndex, inRange⟩) ?_ memberFormed
            simp only [List.length_cons]
            omega

end Knot

theorem describes_tree {layer : Layer Value Value} (isLayer : value.layer? = some layer)
    (untied : ∀ owner nodes index, value ≠ .knot owner nodes index) (formed : value.WellFormed)
    (outside : ∀ ancestor ∈ ancestors, weight value < weight ancestor)
    (lighter : ∀ {inner : Value} {ancestors : List Value}, weight inner < weight value →
      inner.WellFormed → (∀ ancestor ∈ ancestors, weight inner < weight ancestor) →
      Describes ancestors inner (plain inner)) :
    Describes ancestors value (plain value) := by
  rw [plain_eq_collect isLayer untied]
  have isMap : value.layer? = some (layer.map id) := by
    rw [Layer.map_id, isLayer]
  have new : value ∉ ancestors := fun old => absurd (outside value old) (lt_irrefl _)
  refine describes_collect isMap new formed.self.distinct ?_
  intro member isMember
  have less := weight_lt_of_layer isLayer untied isMember
  refine lighter less (formed.member ⟨layer, isLayer, isMember⟩) ?_
  intro ancestor isAncestor
  rcases List.mem_cons.mp isAncestor with rfl | isOuter
  · exact less
  · exact less.trans (outside ancestor isOuter)

/-- A value becomes its unfolding if nothing is in the way, and else there is what is first in the
way. -/
theorem describes_plain (formed : value.WellFormed)
    (outside : ∀ ancestor ∈ ancestors, weight value < weight ancestor) :
    Describes ancestors value (plain value) := by
  -- Members of a container have less weight, except for other nodes of the same knot.
  induction isWeight : weight value using Nat.strongRecOn generalizing value ancestors with
  | _ size induction =>
      subst isWeight
      have lighter {inner : Value} {others : List Value} (less : weight inner < weight value)
          (innerFormed : inner.WellFormed)
          (innerOutside : ∀ ancestor ∈ others, weight inner < weight ancestor) :
          Describes others inner (plain inner) :=
        induction (weight inner) less innerFormed innerOutside rfl
      cases value with
      | null => exact describes_scalar .null rfl
      | bool value => exact describes_scalar (.bool value) rfl
      | int value => exact describes_scalar (.int value) rfl
      | float value => exact describes_scalar (.float value) rfl
      | nan origin => exact describes_scalar (.nan origin) rfl
      | text value => exact describes_scalar (.text value) rfl
      | bytes value => exact describes_scalar (.bytes value) rfl
      | date value => exact describes_scalar (.date value) rfl
      | dateTime value => exact describes_scalar (.dateTime value) rfl
      | array | tuple | set | record => exact describes_tree rfl nofun formed outside lighter
      | function => exact describes_strange (.function ..) rfl
      | foreign kind => exact describes_strange (.foreign kind) rfl
      | knot owner nodes index =>
          exact describes_unfold outside lighter (nodes.length + 1) index List.nodup_nil
            (List.forall_mem_nil _) (Nat.lt_succ_self _) formed

/-! ## Results -/

variable {json : Json}

theorem toJson_eq_ok_iff (formed : value.WellFormed) :
    value.toJson = .ok json ↔ Unfolds value json := by
  have describes := describes_plain formed (List.forall_mem_nil _)
  constructor
  · intro given
    exact describes.unfolds json (of_mapError_eq_ok given)
  · intro unfolds
    cases isPlain : plain value with
    | ok other =>
        rw [toJson, isPlain, unfolds.unique (describes.unfolds other isPlain)]
        rfl
    | error obstacle =>
        have heeds := describes.heeds
        rw [isPlain] at heeds
        obtain ⟨place, first⟩ := heeds
        exact absurd first.here (clean_iff.mp unfolds.clean place obstacle)

theorem exists_toJson_iff_clean (formed : value.WellFormed) :
    (∃ json, value.toJson = .ok json) ↔ value.Clean := by
  constructor
  · rintro ⟨json, given⟩
    exact ((toJson_eq_ok_iff formed).mp given).clean
  · intro clean
    have heeds := (describes_plain formed (List.forall_mem_nil _)).heeds
    cases isPlain : plain value with
    | ok json =>
        refine ⟨json, ?_⟩
        rw [toJson, isPlain]
        rfl
    | error obstacle =>
        rw [isPlain] at heeds
        obtain ⟨place, first⟩ := heeds
        exact absurd first.here (clean_iff.mp clean place obstacle)

theorem toJson_eq_error_iff (formed : value.WellFormed) {error : LoadError} :
    value.toJson = .error error ↔
      ∃ place obstacle, IsFirst (Offence [] value) place obstacle ∧ error = obstacle.toError := by
  have heeds := (describes_plain formed (List.forall_mem_nil _)).heeds
  cases isPlain : plain value with
  | ok json =>
      rw [isPlain] at heeds
      rw [toJson, isPlain]
      refine iff_of_false nofun ?_
      rintro ⟨place, obstacle, first, _⟩
      exact heeds place obstacle first.here
  | error obstacle =>
      rw [isPlain] at heeds
      obtain ⟨place, first⟩ := heeds
      rw [toJson, isPlain]
      constructor
      · intro failed
        exact ⟨place, obstacle, first, (Except.error.inj failed).symm⟩
      · rintro ⟨_, other, isFirst, rfl⟩
        rw [first.unique isFirst]
        rfl

/-- What a value unfolds into is given back when it is taken as a value again. -/
theorem Unfolds.plain_again {json : Json} (unfolds : Unfolds value json)
    (formed : value.WellFormed) : plain (ofJson json) = .ok json := by
  induction unfolds with
  | null | bool | int | text | date | dateTime => rfl
  | float value =>
      have isNumber := formed.self.isNumber value rfl
      rw [ofJson, ofNumber, isNumber]
      rfl
  | nan =>
      rw [ofJson, ofNumber]
      split <;> rfl
  | bytes value =>
      rw [ofJson, plain, plainItems_ofJsonItems]
      · rfl
      · intro item member
        obtain ⟨byte, _, rfl⟩ := List.mem_map.mp member
        rfl
  | @row _ layer items images isLayer isRow sameLength _ induction =>
      rw [ofJson, plain, plainItems_ofJsonItems]
      · rfl
      · intro image member
        obtain ⟨item, isPair⟩ := exists_zip_of_mem_right sameLength member
        apply induction item image isPair
        refine formed.member ⟨layer, isLayer, ?_⟩
        rw [Layer.members_of_row? isRow]
        exact (List.of_mem_zip isPair).1
  | @record _ fields images isRecord sameKeys _ induction =>
      have names : (([] ++ images).map Prod.fst).Nodup :=
        nodup_names (formed.self.distinct fields isRecord) sameKeys
      rw [ofJson, plain, plainFields_ofJsonFields _ names]
      · rfl
      · intro image member
        obtain ⟨field, isPair⟩ := exists_zip_of_mem_right (keys_eq_iff.mp sameKeys).1 member
        apply induction field image isPair
        exact formed.member ⟨_, isRecord, List.mem_map_of_mem (List.of_mem_zip isPair).1⟩

theorem toJson_again (formed : value.WellFormed) (given : value.toJson = .ok json) :
    json.Keyed ∧ (ofJson json).toJson = .ok json := by
  refine ⟨keyed_plain value json (of_mapError_eq_ok given), ?_⟩
  rw [toJson, ((toJson_eq_ok_iff formed).mp given).plain_again formed]
  rfl

end Value

/-! ## Graphs -/

namespace Graph

/-- A link leads to a container of the graph, or to a value outside that is well formed. -/
def LinkFormed (graph : Graph) : Link Value → Prop
  | .value outside => outside.WellFormed
  | .node index => index < graph.size

/-- All links of a graph are formed, and no record has a key twice. -/
structure Formed (graph : Graph) : Prop where
  linked : ∀ layer ∈ graph.toList, ∀ link ∈ layer.members, graph.LinkFormed link
  distinct : ∀ fields, .record fields ∈ graph.toList →
    fields.Pairwise fun field other => Value.sameKey field.1 other.1 = false

end Graph

namespace Value

variable {owner : Text} {graph : Graph}

theorem formed_of_layer {value : Value} {layer : Layer Value Value}
    (isLayer : value.layer? = some layer)
    (distinct : ∀ fields, layer = .record fields → Fields.Distinct fields) : value.Formed where
  isNumber := by
    rintro float rfl
    cases isLayer
  inRange := by
    rintro owner nodes index rfl
    rw [layer?_knot] at isLayer
    obtain ⟨node, isNode, _⟩ := Option.map_eq_some_iff.mp isLayer
    exact (List.getElem?_eq_some_iff.mp isNode).1
  distinct fields isRecord := distinct fields (Option.some.inj (isLayer.symm.trans isRecord))

theorem formed_ofGraph (formed : graph.Formed) {index : Nat} (inRange : index < graph.size) :
    (ofGraph owner graph (.node index)).Formed := by
  have isNode : graph[index]? = some graph[index] := Array.getElem?_eq_getElem inRange
  have isLayer : (ofGraph owner graph (.node index)).layer? =
      some (graph[index].map (ofGraph owner graph)) := by
    rw [layer?_ofGraph, isNode, Option.map_some]
  refine formed_of_layer isLayer ?_
  intro fields isRecord
  cases same : graph[index] with
  | array | tuple | set =>
      rw [same] at isRecord
      cases isRecord
  | record original =>
      have member : .record original ∈ graph.toList := by
        rw [← same]
        exact Array.getElem_mem_toList inRange
      rw [same] at isRecord
      cases isRecord
      exact List.pairwise_map.mpr (formed.distinct original member)

/-- What a link leads to is well formed, or it is a container of the graph. -/
theorem formed_or_node {link : Link Value} (linkFormed : graph.LinkFormed link) :
    (ofGraph owner graph link).WellFormed ∨
      ∃ index < graph.size, ofGraph owner graph link = ofGraph owner graph (.node index) := by
  cases link with
  | value outside => exact .inl linkFormed
  | node index => exact .inr ⟨index, linkFormed, rfl⟩

theorem wellFormed_ofGraph (formed : graph.Formed) {root : Link Value}
    (rootFormed : graph.LinkFormed root) : (ofGraph owner graph root).WellFormed := by
  intro inner reaches
  have reached : inner.WellFormed ∨
      ∃ index < graph.size, inner = ofGraph owner graph (.node index) := by
    induction reaches with
    | refl => exact formed_or_node rootFormed
    | tail _ contains induction =>
        rcases induction with isFormed | ⟨index, inRange, rfl⟩
        · exact .inl (isFormed.member contains)
        · obtain ⟨layer, isLayer, member⟩ := contains
          rw [layer?_ofGraph] at isLayer
          obtain ⟨node, isNode, rfl⟩ := Option.map_eq_some_iff.mp isLayer
          rw [Layer.members_map] at member
          obtain ⟨link, isLink, rfl⟩ := List.mem_map.mp member
          have isContainer : node ∈ graph.toList := by
            rw [Array.mem_toList_iff]
            exact Array.mem_of_getElem? isNode
          exact formed_or_node (formed.linked node isContainer link isLink)
  rcases reached with isFormed | ⟨index, inRange, rfl⟩
  · exact isFormed.self
  · exact formed_ofGraph formed inRange

/-- The code of the error about an obstacle. -/
def Obstacle.code : Obstacle → ErrorCode
  | unserializable _ => .unserializableValue
  | nonStringKey _ => .nonStringKey
  | cyclic _ => .cyclicValue

theorem Obstacle.kind_toError (obstacle : Obstacle) : obstacle.toError.kind = .serialization := by
  cases obstacle <;> rfl

theorem Obstacle.code_toError (obstacle : Obstacle) : obstacle.toError.code = obstacle.code := by
  cases obstacle <;> rfl

/-- The values of a graph have the members of its containers, whatever is shared between these and
whichever of them contain themselves.  Serializing ends with the unfolding of a value that is clean,
and with the first offence of any other: an error of the stage of serialization with the code of the
offence.  Data that it gives are given back unchanged. -/
theorem toJson_ofGraph (owner : Text) (formed : graph.Formed)
    {root : Link Value} (rootFormed : graph.LinkFormed root) :
    (∀ index, (ofGraph owner graph (.node index)).layer? =
      graph[index]?.map (Layer.map (ofGraph owner graph))) ∧
    (∀ json, (ofGraph owner graph root).toJson = .ok json ↔
      Unfolds (ofGraph owner graph root) json) ∧
    ((∃ json, (ofGraph owner graph root).toJson = .ok json) ↔ (ofGraph owner graph root).Clean) ∧
    (∀ error, (ofGraph owner graph root).toJson = .error error ↔
      ∃ place obstacle, IsFirst (Offence [] (ofGraph owner graph root)) place obstacle ∧
        error = obstacle.toError ∧ error.kind = .serialization ∧ error.code = obstacle.code) ∧
    ∀ json, (ofGraph owner graph root).toJson = .ok json →
      json.Keyed ∧ (ofJson json).toJson = .ok json := by
  have valueFormed : (ofGraph owner graph root).WellFormed := wellFormed_ofGraph formed rootFormed
  refine ⟨layer?_ofGraph owner graph, ?_, exists_toJson_iff_clean valueFormed, ?_, ?_⟩
  · intro json
    exact toJson_eq_ok_iff valueFormed
  · intro error
    rw [toJson_eq_error_iff valueFormed]
    constructor
    · rintro ⟨place, obstacle, isFirst, rfl⟩
      exact ⟨place, obstacle, isFirst, rfl, obstacle.kind_toError, obstacle.code_toError⟩
    · rintro ⟨place, obstacle, isFirst, isError, _⟩
      exact ⟨place, obstacle, isFirst, isError⟩
  · intro json given
    exact toJson_again valueFormed given

/-- An array of an array that has a record twice, and of a tuple that is in itself. -/
def entangled : Graph :=
  #[.array [.node 1, .node 3], .array [.node 2, .node 2],
    .record [(.text "port", .value (.int 1))], .tuple [.node 3]]

theorem formed_entangled : entangled.Formed where
  linked := by
    have isFormed : (int 1).WellFormed := Formed.wellFormed ⟨nofun, nofun, nofun⟩ rfl
    simp [entangled, Layer.members, Graph.LinkFormed, isFormed]
  distinct := by simp [entangled]

/-- A record in two places is copied; the tuple in itself is an offence. -/
theorem toJson_ofGraph_entangled :
    Unfolds (ofGraph "a" entangled (.node 1))
      (.array [.object [("port", .number (.int 1))], .object [("port", .number (.int 1))]]) ∧
    ∃ place obstacle, IsFirst (Offence [] (ofGraph "a" entangled (.node 0))) place obstacle ∧
      obstacle.code = .cyclicValue := by
  have inRange : entangled.LinkFormed (.node 1) ∧ entangled.LinkFormed (.node 0) := by
    simp [entangled, Graph.LinkFormed]
  obtain ⟨_, unfolds, _⟩ := toJson_ofGraph "a" formed_entangled inRange.1
  obtain ⟨_, _, _, offends, _⟩ := toJson_ofGraph "a" formed_entangled inRange.2
  obtain ⟨place, obstacle, isFirst, _, _, code⟩ := (offends (Obstacle.cyclic "array").toError).mp rfl
  exact ⟨(unfolds _).mp rfl, place, obstacle, isFirst, code.symm⟩

end Value

end ConfigGraph
