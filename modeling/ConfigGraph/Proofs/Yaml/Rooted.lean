import ConfigGraph.Proofs.Sequence
import ConfigGraph.Proofs.Value.Data

/-!
# Building YAML data

At every moment of the building of a document, the collections and the values made so far are rooted
in any documents (`Building.Rooted`).  Each step of the building keeps that, so that there is no
function in the value at the end.
-/

namespace ConfigGraph.Yaml

variable {documents : List Document}

namespace Building

/-- Everything made so far is rooted. -/
structure Rooted (documents : List Document) (building : Building) : Prop where
  graph : building.graph.Rooted documents
  made : ∀ (number : Nat) (link : Link Value), (building.made[number]?).join = some link →
    link.Rooted documents

theorem rooted_start (nodes : Nodes) : (start nodes).Rooted documents := by
  constructor
  · intro layer member
    cases member
  · intro number link found
    simp only [start, Array.getElem?_replicate] at found
    split at found <;> cases found

theorem Rooted.note {building : Building} (rooted : building.Rooted documents) (number : Nat)
    {link : Link Value} (linkRooted : link.Rooted documents) :
    (building.note number link).Rooted documents := by
  refine ⟨rooted.graph, fun other found isFound => ?_⟩
  simp only [Building.note, Array.getElem?_setIfInBounds] at isFound
  split at isFound
  · split at isFound
    · cases isFound
      exact linkRooted
    · cases isFound
  · exact rooted.made other found isFound

theorem Rooted.enqueue {building : Building} (rooted : building.Rooted documents) (number : Nat)
    (shape : Shape) :
    (building.enqueue number shape).1.Rooted documents ∧
      (building.enqueue number shape).2.Rooted documents := by
  have linkRooted : (Link.node building.graph.size : Link Value).Rooted documents :=
    Link.rooted_node _
  have emptyRooted : (.array [] : Layer Value (Link Value)).Rooted documents :=
    List.forall_mem_nil _
  exact ⟨linkRooted, rooted.graph.push emptyRooted, (rooted.note number linkRooted).made⟩

/-! ## Scalars -/

theorem rooted_timestamp {building : Building} {number : Nat} {value : Value}
    (read : building.timestamp number = .ok value) : value.Rooted documents := by
  obtain ⟨_, _, rest⟩ := of_bind_eq_ok read
  split at rest
  · split at rest
    · cases rest
    · obtain ⟨_, _, same⟩ := of_bind_eq_ok rest
      cases same
      exact Value.rooted_of_plain rfl rfl
    · obtain ⟨_, _, same⟩ := of_bind_eq_ok rest
      cases same
      exact Value.rooted_of_plain rfl rfl
  · cases rest

theorem rooted_binary {building : Building} {number : Nat} {value : Value}
    (read : building.binary number = .ok value) : value.Rooted documents := by
  obtain ⟨_, _, rest⟩ := of_bind_eq_ok read
  split at rest
  · cases rest
  · split at rest
    · cases rest
      exact Value.rooted_of_plain rfl rfl
    · cases rest

theorem rooted_float {building : Building} {owner : Text} {number : Nat} {value : Value}
    (read : building.float owner number = .ok value) : value.Rooted documents := by
  obtain ⟨_, _, rest⟩ := of_bind_eq_ok read
  split at rest
  · cases rest
    exact Value.rooted_of_plain rfl rfl
  · obtain ⟨_, _, same⟩ := of_bind_eq_ok rest
    cases same
    exact Value.rooted_ofNumber _ _

/-! ## Nodes -/

/-- A node becomes a rooted value, or a collection to be filled later. -/
theorem Rooted.make {owner : Text} {building : Building} (rooted : building.Rooted documents)
    {number : Nat} {link : Link Value} {next : Building}
    (made : building.make owner number = .ok (link, next)) :
    link.Rooted documents ∧ next.Rooted documents := by
  have scalar {read : Except Fault Value}
      (valueRooted : ∀ value, read = .ok value → value.Rooted documents)
      (noted : (do
        let link := Link.value (← read)
        return (link, building.note number link)) = .ok (link, next)) :
      link.Rooted documents ∧ next.Rooted documents := by
    obtain ⟨value, isRead, same⟩ := of_bind_eq_ok noted
    cases same
    have linkRooted := Link.rooted_value.mpr (valueRooted value isRead)
    exact ⟨linkRooted, rooted.note number linkRooted⟩
  have queued {shape : Shape} (same : building.enqueue number shape = (link, next)) :
      link.Rooted documents ∧ next.Rooted documents := by
    have both := rooted.enqueue number shape
    rw [same] at both
    exact both
  unfold Building.make at made
  split at made
  case h_1 old isOld =>
    cases made
    exact ⟨rooted.made number _ isOld, rooted⟩
  case h_2 =>
    dsimp only at made
    -- Scalars become values at once, and collections are filled later.
    split at made
    · refine scalar (fun value isRead => ?_) made
      obtain ⟨_, _, same⟩ := of_bind_eq_ok isRead
      cases same
      exact Value.rooted_of_plain rfl rfl
    · refine scalar (fun value isRead => ?_) made
      obtain ⟨_, _, rest⟩ := of_bind_eq_ok isRead
      obtain ⟨_, _, same⟩ := of_bind_eq_ok rest
      cases same
      exact Value.rooted_of_plain rfl rfl
    · refine scalar (fun value isRead => ?_) made
      obtain ⟨_, _, rest⟩ := of_bind_eq_ok isRead
      obtain ⟨_, _, same⟩ := of_bind_eq_ok rest
      cases same
      exact Value.rooted_of_plain rfl rfl
    · exact scalar (fun value isRead => rooted_float isRead) made
    · exact scalar (fun value isRead => rooted_binary isRead) made
    · exact scalar (fun value isRead => rooted_timestamp isRead) made
    · refine scalar (fun value isRead => ?_) made
      obtain ⟨_, _, same⟩ := of_bind_eq_ok isRead
      cases same
      exact Value.rooted_of_plain rfl rfl
    · exact queued (Except.ok.inj made)
    · exact queued (Except.ok.inj made)
    · exact queued (Except.ok.inj made)
    · exact queued (Except.ok.inj made)
    · exact queued (Except.ok.inj made)
    · cases made

/-! ## Merging -/

/-- Merging only changes nodes. -/
structure SameMade (before after : Building) : Prop where
  graph : after.graph = before.graph
  made : after.made = before.made

theorem SameMade.refl (building : Building) : SameMade building building := ⟨rfl, rfl⟩

theorem SameMade.trans {first second third : Building} (left : SameMade first second)
    (right : SameMade second third) : SameMade first third :=
  ⟨right.graph.trans left.graph, right.made.trans left.made⟩

theorem SameMade.rooted {before after : Building} (same : SameMade before after)
    (rooted : before.Rooted documents) : after.Rooted documents := by
  constructor
  · rw [same.graph]
    exact rooted.graph
  · rw [same.made]
    exact rooted.made

/-- Merging the mappings of a sequence keeps what each of them keeps. -/
theorem SameMade.foldlM {items : List Nat}
    {merge : List (Nat × Nat) × Building → Nat → Except Fault (List (Nat × Nat) × Building)}
    (keeps : ∀ {state item next}, merge state item = .ok next → SameMade state.2 next.2)
    {state next : List (Nat × Nat) × Building} (merged : items.foldlM merge state = .ok next) :
    SameMade state.2 next.2 := by
  induction items generalizing state with
  | nil =>
      cases merged
      exact .refl _
  | cons item items induction =>
      rw [List.foldlM_cons] at merged
      obtain ⟨middle, isMiddle, rest⟩ := of_bind_eq_ok merged
      exact (keeps isMiddle).trans (induction rest)

theorem sameMade_flatten {bound number : Nat} {merged : List (Nat × Nat)} {building next : Building}
    (flattened : flatten bound number merged building = .ok next) : SameMade building next := by
  -- A merge flattens the mappings that it asks for before it goes on, both with a smaller bound.
  induction bound generalizing number merged building next with
  | zero => cases flattened
  | succ bound induction =>
      unfold flatten at flattened
      dsimp only at flattened
      split at flattened
      case h_1 =>
        cases flattened
        exact ⟨rfl, rfl⟩
      case h_2 source _ =>
        split at flattened
        · obtain ⟨inner, isInner, rest⟩ := of_bind_eq_ok flattened
          have kept := (induction isInner).trans (induction rest)
          exact ⟨kept.graph, kept.made⟩
        · obtain ⟨⟨added, middle⟩, isMiddle, rest⟩ := of_bind_eq_ok flattened
          have first := SameMade.foldlM (fun {state item after} stepped => ?_) isMiddle
          · have kept := first.trans (induction rest)
            exact ⟨kept.graph, kept.made⟩
          · split at stepped
            · obtain ⟨inner, isInner, same⟩ := of_bind_eq_ok stepped
              cases same
              exact induction isInner
            · cases stepped
        · cases flattened

/-! ## Filling collections -/

theorem rooted_keyOf {building : Building} {number : Nat} {link : Link Value}
    (linkRooted : link.Rooted documents) {key : Value}
    (isKey : building.keyOf number link = .ok key) : key.Rooted documents := by
  cases link with
  | value outside =>
      cases isKey
      exact Link.rooted_value.mp linkRooted
  | node index => cases isKey

theorem Rooted.makeItems {owner : Text} {items : List Nat} {building : Building}
    (rooted : building.Rooted documents) {links : List (Link Value)} {next : Building}
    (made : Building.makeItems owner items building = .ok (links, next)) :
    (∀ link ∈ links, link.Rooted documents) ∧ next.Rooted documents := by
  induction items generalizing building links with
  | nil =>
      cases made
      exact ⟨List.forall_mem_nil _, rooted⟩
  | cons item items induction =>
      obtain ⟨⟨link, middle⟩, isMiddle, rest⟩ := of_bind_eq_ok made
      obtain ⟨⟨others, last⟩, areOthers, same⟩ := of_bind_eq_ok rest
      cases same
      obtain ⟨linkRooted, middleRooted⟩ := rooted.make isMiddle
      obtain ⟨othersRooted, lastRooted⟩ := induction middleRooted areOthers
      exact ⟨List.forall_mem_cons.mpr ⟨linkRooted, othersRooted⟩, lastRooted⟩

/-- The keys and the links of fields are rooted. -/
def FieldsRooted (documents : List Document) (fields : List (Value × Link Value)) : Prop :=
  ∀ field ∈ fields, field.1.Rooted documents ∧ field.2.Rooted documents

theorem FieldsRooted.put {fields : List (Value × Link Value)}
    (fieldsRooted : FieldsRooted documents fields) {key : Value} (keyRooted : key.Rooted documents)
    {link : Link Value} (linkRooted : link.Rooted documents) :
    FieldsRooted documents (Fields.put key link fields) := by
  intro field member
  obtain ⟨isKey, isLink⟩ := Fields.mem_put member
  constructor
  · rcases isKey with same | ⟨other, isOther, same⟩
    · rw [same]
      exact keyRooted
    · rw [← same]
      exact (fieldsRooted other isOther).1
  · rcases isLink with same | ⟨other, isOther, same⟩
    · rw [same]
      exact linkRooted
    · rw [← same]
      exact (fieldsRooted other isOther).2

theorem Rooted.makeFields {owner : Text} {pairs : List (Nat × Nat)} {building : Building}
    (rooted : building.Rooted documents) {fields : List (Value × Link Value)}
    (fieldsRooted : FieldsRooted documents fields) {result : List (Value × Link Value)}
    {next : Building}
    (made : Building.makeFields owner fields pairs building = .ok (result, next)) :
    FieldsRooted documents result ∧ next.Rooted documents := by
  induction pairs generalizing building fields with
  | nil =>
      cases made
      exact ⟨fieldsRooted, rooted⟩
  | cons pair pairs induction =>
      obtain ⟨⟨keyLink, behindKey⟩, keyMade, rest⟩ := of_bind_eq_ok made
      obtain ⟨key, isKey, rest⟩ := of_bind_eq_ok rest
      obtain ⟨⟨link, behind⟩, linkMade, rest⟩ := of_bind_eq_ok rest
      obtain ⟨keyRooted, behindKeyRooted⟩ := rooted.make keyMade
      obtain ⟨linkRooted, behindRooted⟩ := behindKeyRooted.make linkMade
      exact induction behindRooted (fieldsRooted.put (rooted_keyOf keyRooted isKey) linkRooted) rest

theorem Rooted.fieldsOf {owner : Text} {building : Building} (rooted : building.Rooted documents)
    {number : Nat} {fields : List (Value × Link Value)} {next : Building}
    (made : building.fieldsOf owner number = .ok (fields, next)) :
    FieldsRooted documents fields ∧ next.Rooted documents := by
  unfold Building.fieldsOf at made
  split at made
  · obtain ⟨middle, flattened, rest⟩ := of_bind_eq_ok made
    exact ((sameMade_flatten flattened).rooted rooted).makeFields (List.forall_mem_nil _) rest
  · cases made

theorem Rooted.makePairs {owner : Text} {items : List Nat} {building : Building}
    (rooted : building.Rooted documents) {links : List (Link Value)} {next : Building}
    (made : Building.makePairs owner items building = .ok (links, next)) :
    (∀ link ∈ links, link.Rooted documents) ∧ next.Rooted documents := by
  induction items generalizing building links with
  | nil =>
      cases made
      exact ⟨List.forall_mem_nil _, rooted⟩
  | cons item items induction =>
      unfold Building.makePairs at made
      split at made
      · obtain ⟨⟨key, behindKey⟩, keyMade, rest⟩ := of_bind_eq_ok made
        obtain ⟨⟨value, behind⟩, valueMade, rest⟩ := of_bind_eq_ok rest
        obtain ⟨⟨others, last⟩, areOthers, same⟩ := of_bind_eq_ok rest
        cases same
        obtain ⟨keyRooted, behindKeyRooted⟩ := rooted.make keyMade
        obtain ⟨valueRooted, behindRooted⟩ := behindKeyRooted.make valueMade
        have pairRooted : (.tuple [key, value] : Layer Value (Link Value)).Rooted documents :=
          List.forall_mem_cons.mpr ⟨keyRooted, List.forall_mem_singleton.mpr valueRooted⟩
        have madeRooted : ({ behind with
            graph := behind.graph.push (.tuple [key, value]) } : Building).Rooted documents :=
          ⟨behindRooted.graph.push pairRooted, behindRooted.made⟩
        obtain ⟨othersRooted, lastRooted⟩ := induction madeRooted areOthers
        exact ⟨List.forall_mem_cons.mpr ⟨Link.rooted_node _, othersRooted⟩, lastRooted⟩
      · cases made
      · cases made

/-- The content of a collection, and everything made for it, is rooted. -/
theorem Rooted.layer {owner : Text} {building : Building} (rooted : building.Rooted documents)
    {number : Nat} {shape : Shape} {layer : Layer Value (Link Value)} {next : Building}
    (made : building.layer owner number shape = .ok (layer, next)) :
    layer.Rooted documents ∧ next.Rooted documents := by
  cases shape with
  | array =>
      simp only [Building.layer] at made
      split at made
      · obtain ⟨⟨links, last⟩, isMade, same⟩ := of_bind_eq_ok made
        cases same
        exact rooted.makeItems isMade
      · cases made
  | record =>
      simp only [Building.layer] at made
      obtain ⟨⟨fields, last⟩, isMade, same⟩ := of_bind_eq_ok made
      cases same
      obtain ⟨fieldsRooted, lastRooted⟩ := rooted.fieldsOf isMade
      refine ⟨fun link member => ?_, lastRooted⟩
      obtain ⟨field, isField, rfl⟩ := List.mem_map.mp member
      exact (fieldsRooted field isField).2
  | set =>
      simp only [Building.layer] at made
      obtain ⟨⟨fields, last⟩, isMade, same⟩ := of_bind_eq_ok made
      cases same
      obtain ⟨fieldsRooted, lastRooted⟩ := rooted.fieldsOf isMade
      refine ⟨fun link member => ?_, lastRooted⟩
      obtain ⟨field, isField, rfl⟩ := List.mem_map.mp member
      exact Link.rooted_value.mpr (fieldsRooted field isField).1
  | pairs =>
      simp only [Building.layer] at made
      split at made
      · obtain ⟨⟨links, last⟩, isMade, same⟩ := of_bind_eq_ok made
        cases same
        exact rooted.makePairs isMade
      · cases made

theorem Rooted.fill {owner : Text} {bound : Nat} {building : Building}
    (rooted : building.Rooted documents) {filled : Building}
    (isFilled : building.fill owner bound = .ok filled) : filled.Rooted documents := by
  induction bound generalizing building with
  | zero =>
      cases isFilled
      exact rooted
  | succ bound induction =>
      unfold Building.fill at isFilled
      split at isFilled
      · cases isFilled
        exact rooted
      case h_2 number shape index waiting _ =>
        obtain ⟨⟨layer, next⟩, made, rest⟩ := of_bind_eq_ok isFilled
        have waitingRooted : ({ building with waiting } : Building).Rooted documents :=
          ⟨rooted.graph, rooted.made⟩
        obtain ⟨layerRooted, nextRooted⟩ := waitingRooted.layer made
        have filledRooted : ({ next with
            graph := next.graph.setIfInBounds index layer } : Building).Rooted documents :=
          ⟨nextRooted.graph.set index layerRooted, nextRooted.made⟩
        exact induction filledRooted rest

end Building

theorem Nodes.rooted_value {nodes : Nodes} {owner : Text} {root : Nat} {value : Value}
    (made : nodes.value owner root = .ok value) : value.Rooted documents := by
  obtain ⟨⟨link, building⟩, isMade, rest⟩ := of_bind_eq_ok made
  obtain ⟨filled, isFilled, same⟩ := of_bind_eq_ok rest
  cases same
  obtain ⟨linkRooted, buildingRooted⟩ := (Building.rooted_start nodes).make isMade
  exact Value.rooted_ofGraph (buildingRooted.fill isFilled).graph linkRooted

/-- There is no function in the value of a YAML document. -/
theorem rooted_decode {owner text : Text} {value : Value}
    (decoded : decode owner text = .ok value) : value.Rooted documents := by
  unfold decode at decoded
  dsimp only at decoded
  split at decoded
  · cases decoded
  · obtain ⟨composition, _, rest⟩ := of_bind_eq_ok decoded
    split at rest
    · cases rest
      exact Value.rooted_of_plain rfl rfl
    · exact Nodes.rooted_value rest

end ConfigGraph.Yaml
