import ConfigGraph.Proofs.Value.Unfolding

/-!
# The first obstacle in a container

The members of a container become plain data from left to right, up to the first that fails.  If each
of them gives its unfolding, or what is first in its own way, then so does the container.
-/

namespace ConfigGraph

namespace Value

variable {ancestors : List Value} {value : Value}

/-! ## What is first in the way -/

/-- Something is given if there is no obstacle anywhere, and else the first obstacle. -/
def Heeds {β : Type} (isAt : List Nat → Obstacle → Prop) : Except Obstacle β → Prop
  | .ok _ => ∀ place obstacle, ¬isAt place obstacle
  | .error obstacle => ∃ place, IsFirst isAt place obstacle

theorem Heeds.map {β γ : Type} {isAt : List Nat → Obstacle → Prop} {outcome : Except Obstacle β}
    (heeds : Heeds isAt outcome) (change : β → γ) :
    Heeds isAt (do return change (← outcome)) := by
  cases outcome with
  | ok _ => exact heeds
  | error _ => exact heeds

theorem isFirst_cons {isAt : List Nat → Obstacle → Prop} {position : Nat} {place : List Nat}
    {obstacle : Obstacle} (notOutside : ∀ later, ¬isAt [] later)
    (notBefore : ∀ earlier rest later, earlier < position → ¬isAt (earlier :: rest) later)
    (inside : IsFirst (fun rest later => isAt (position :: rest) later) place obstacle) :
    IsFirst isAt (position :: place) obstacle := by
  refine ⟨inside.here, ?_⟩
  intro other later isOther
  cases other with
  | nil => exact absurd isOther (notOutside later)
  | cons otherPosition rest =>
      rcases lt_trichotomy position otherPosition with isLess | rfl | isEarlier
      · exact .inl (List.cons_lt_cons_iff.mpr (.inl isLess))
      · rcases inside.first rest later isOther with isLess | ⟨rfl, sameOrKey⟩
        · exact .inl (List.cons_lt_cons_iff.mpr (.inr ⟨rfl, isLess⟩))
        · exact .inr ⟨rfl, sameOrKey⟩
      · exact absurd isOther (notBefore otherPosition rest later isEarlier)

/-- From left to right, the first item that fails is the one with the first obstacle. -/
theorem heeds_mapM {α β : Type} {isAt : List Nat → Obstacle → Prop} {items : List α}
    {transform : α → Except Obstacle β} {isIn : α → List Nat → Obstacle → Prop}
    (notOutside : ∀ later, ¬isAt [] later)
    (isAt_cons : ∀ position rest later, isAt (position :: rest) later ↔
      ∃ item, items[position]? = some item ∧ isIn item rest later)
    (heeds : ∀ item ∈ items, Heeds (isIn item) (transform item)) :
    Heeds isAt (items.mapM transform) := by
  have free {item : α} {image : β} (member : item ∈ items) (given : transform item = .ok image) :
      ∀ rest later, ¬isIn item rest later := by
    have heedsItem := heeds item member
    rwa [given] at heedsItem
  -- Items before the first that fails have no obstacle in them, and those behind it come later.
  cases mapped : items.mapM transform with
  | ok images =>
      obtain ⟨sameLength, all⟩ := zip_of_mapM mapped
      intro place obstacle found
      cases place with
      | nil => exact notOutside obstacle found
      | cons position rest =>
          obtain ⟨item, isItem, found⟩ := (isAt_cons position rest obstacle).mp found
          have member := List.mem_of_getElem? isItem
          obtain ⟨image, isPair⟩ := exists_zip_of_mem_left sameLength member
          exact free member (all item image isPair) rest obstacle found
  | error failure =>
      obtain ⟨position, item, isItem, fails, before⟩ := first_of_mapM_eq_error mapped
      have heedsItem := heeds item (List.mem_of_getElem? isItem)
      rw [fails] at heedsItem
      obtain ⟨place, first⟩ := heedsItem
      refine ⟨position :: place, isFirst_cons notOutside ?_ ⟨?_, ?_⟩⟩
      · intro earlier rest later isEarlier found
        obtain ⟨other, isOther, found⟩ := (isAt_cons earlier rest later).mp found
        obtain ⟨image, given⟩ := before earlier other isEarlier isOther
        exact free (List.mem_of_getElem? isOther) given rest later found
      · exact (isAt_cons position place failure).mpr ⟨item, isItem, first.here⟩
      · intro rest later found
        obtain ⟨other, isOther, found⟩ := (isAt_cons position rest later).mp found
        cases isItem.symm.trans isOther
        exact first.first rest later found

/-! ## One container -/

/-- The outcome is the unfolding of a value with nothing in the way, or what is in the way first. -/
structure Describes (ancestors : List Value) (value : Value) (outcome : Except Obstacle Json) :
    Prop where
  heeds : Heeds (Offence ancestors value) outcome
  unfolds : ∀ json, outcome = .ok json → Unfolds value json

theorem describes_scalar {json : Json} (unfolds : Unfolds value json)
    (noLayer : value.layer? = none) : Describes ancestors value (.ok json) where
  heeds place obstacle offence := by
    cases offence with
    | strange isStrange => exact unfolds.clean.familiar value .refl isStrange
    | again isLayer | key isLayer | inside isLayer => cases noLayer.symm.trans isLayer
  unfolds other given := by
    cases given
    exact unfolds

theorem describes_strange (isStrange : value.IsStrange) (noLayer : value.layer? = none) :
    Describes ancestors value (.error (.unserializable value.typeName)) where
  heeds := by
    refine ⟨[], .strange isStrange, ?_⟩
    intro other later offence
    cases offence with
    | strange => exact .inr ⟨rfl, .inl rfl⟩
    | again isLayer | key isLayer | inside isLayer => cases noLayer.symm.trans isLayer
  unfolds _ given := by cases given

section Container

variable {layer : Layer Value Value}

theorem not_isStrange_of_layer (isLayer : value.layer? = some layer) : ¬value.IsStrange := by
  intro isStrange
  cases isStrange <;> cases isLayer

theorem describes_again (isLayer : value.layer? = some layer) (old : value ∈ ancestors) :
    Describes ancestors value (.error (.cyclic value.typeName)) where
  heeds := by
    refine ⟨[], .again isLayer old, ?_⟩
    intro other later offence
    cases offence with
    | strange isStrange => exact absurd isStrange (not_isStrange_of_layer isLayer)
    | again => exact .inr ⟨rfl, .inl rfl⟩
    | key | inside => exact .inl (List.nil_lt_cons _ _)
  unfolds _ given := by cases given

theorem not_offence_nil (isLayer : value.layer? = some layer) (new : value ∉ ancestors)
    (obstacle : Obstacle) : ¬Offence ancestors value [] obstacle := by
  intro offence
  cases offence with
  | strange isStrange => exact not_isStrange_of_layer isLayer isStrange
  | again _ old => exact new old

variable {α : Type} {enter : α → Value} {outcome : α → Except Obstacle Json}

theorem describes_row {items : List α} (isLayer : value.layer? = some layer)
    (isRow : layer.row? = some (items.map enter)) (new : value ∉ ancestors)
    (members : ∀ item ∈ items, Describes (value :: ancestors) (enter item) (outcome item)) :
    Describes ancestors value (do return .array (← items.mapM outcome)) where
  heeds := by
    apply Heeds.map
    apply heeds_mapM (not_offence_nil isLayer new) ?_ fun item member => (members item member).heeds
    intro position rest later
    constructor
    · intro offence
      cases offence with
      | key isRecord =>
          cases isLayer.symm.trans isRecord
          cases isRow
      | inside isOther isMember offence =>
          cases isLayer.symm.trans isOther
          rw [Layer.members_of_row? isRow, List.getElem?_map] at isMember
          obtain ⟨item, isItem, rfl⟩ := Option.map_eq_some_iff.mp isMember
          exact ⟨item, isItem, offence⟩
    · rintro ⟨item, isItem, offence⟩
      refine .inside isLayer ?_ offence
      rw [Layer.members_of_row? isRow, List.getElem?_map, isItem]
      rfl
  unfolds json given := by
    obtain ⟨images, mapped, same⟩ := of_bind_eq_ok given
    cases same
    obtain ⟨sameLength, all⟩ := zip_of_mapM mapped
    refine .row isLayer isRow (by simpa using sameLength) ?_
    intro member image isPair
    rw [List.zip_map_left] at isPair
    obtain ⟨⟨item, given⟩, isSource, same⟩ := List.mem_map.mp isPair
    cases same
    exact (members item (List.of_mem_zip isSource).1).unfolds given (all item given isSource)

/-! ## Fields -/

/-- The name and the plain data of a field. -/
def entry (outcome : α → Except Obstacle Json) (field : Value × α) :
    Except Obstacle (Text × Json) := do
  let name ← keyText field.1
  return (name, ← outcome field.2)

/-- An obstacle in the way of a field: its key is no text, or it is in the way of its value. -/
def FieldOffence (ancestors : List Value) (field : Value × Value) (place : List Nat)
    (obstacle : Obstacle) : Prop :=
  ((∀ name, field.1 ≠ .text name) ∧ place = [] ∧ obstacle = .nonStringKey field.1.typeName) ∨
    Offence ancestors field.2 place obstacle

theorem keyText_eq_ok {key : Value} {name : Text} (isName : keyText key = .ok name) :
    key = .text name := by
  unfold keyText at isName
  split at isName
  case h_1 => rw [Except.ok.inj isName]
  case h_2 => cases isName

theorem keyText_eq_error {key : Value} {obstacle : Obstacle}
    (failed : keyText key = .error obstacle) :
    obstacle = .nonStringKey key.typeName ∧ ∀ name, key ≠ .text name := by
  unfold keyText at failed
  split at failed
  case h_1 => cases failed
  case h_2 noText => exact ⟨(Except.error.inj failed).symm, noText⟩

theorem entry_eq_ok {field : Value × α} {image : Text × Json}
    (given : entry outcome field = .ok image) :
    field.1 = .text image.1 ∧ outcome field.2 = .ok image.2 := by
  obtain ⟨name, isName, rest⟩ := of_bind_eq_ok given
  obtain ⟨json, isJson, same⟩ := of_bind_eq_ok rest
  cases same
  exact ⟨keyText_eq_ok isName, isJson⟩

theorem heeds_entry {field : Value × α}
    (heeds : Heeds (Offence ancestors (enter field.2)) (outcome field.2)) :
    Heeds (FieldOffence ancestors (field.1, enter field.2)) (entry outcome field) := by
  cases isName : keyText field.1 with
  | ok name =>
      have onlyValue : FieldOffence ancestors (field.1, enter field.2) =
          Offence ancestors (enter field.2) := by
        funext place obstacle
        exact propext (or_iff_right fun isKey => isKey.1 name (keyText_eq_ok isName))
      unfold entry
      rw [isName, onlyValue]
      exact heeds.map fun json => (name, json)
  | error obstacle =>
      obtain ⟨rfl, noText⟩ := keyText_eq_error isName
      unfold entry
      rw [isName]
      refine ⟨[], .inl ⟨noText, rfl, rfl⟩, ?_⟩
      intro other later _
      cases other with
      | nil => exact .inr ⟨rfl, .inr ⟨_, rfl⟩⟩
      | cons => exact .inl (List.nil_lt_cons _ _)

theorem foldl_put {images done : List (Text × Json)}
    (distinct : ((done ++ images).map Prod.fst).Nodup) :
    images.foldl (fun known image => Json.put image.1 image.2 known) done = done ++ images := by
  induction images generalizing done with
  | nil => exact (List.append_nil done).symm
  | cons image images induction =>
      have new := Keys.notMem_of_nodup distinct
      rw [List.append_cons] at distinct ⊢
      rw [List.foldl_cons, Json.put_of_new new, induction distinct]

theorem nodup_names {fields : Fields} {images : List (Text × Json)}
    (distinct : Fields.Distinct fields)
    (sameKeys : fields.map Prod.fst = images.map fun image => .text image.1) :
    (images.map Prod.fst).Nodup := by
  have differ : (fields.map Prod.fst).Pairwise fun key other => sameKey key other = false :=
    List.pairwise_map.mpr distinct
  rw [sameKeys, List.pairwise_map] at differ
  refine List.pairwise_map.mpr (differ.imp ?_)
  intro image other differs same
  rw [same] at differs
  simp [sameKey, sameScalar] at differs

theorem describes_record {fields : List (Value × α)}
    (isRecord : value.layer? = some ((Layer.record fields).map enter)) (new : value ∉ ancestors)
    (distinct : Fields.Distinct (fields.map fun field => (field.1, enter field.2)))
    (members : ∀ field ∈ fields,
      Describes (value :: ancestors) (enter field.2) (outcome field.2)) :
    Describes ancestors value (do
      let named ← fields.mapM (entry outcome)
      return .object (named.foldl (fun known image => Json.put image.1 image.2 known) [])) where
  heeds := by
    apply Heeds.map
    apply heeds_mapM (not_offence_nil isRecord new) ?_ fun field member =>
      heeds_entry (members field member).heeds
    intro position rest later
    constructor
    · intro offence
      cases offence with
      | key isOther isField noText =>
          cases isRecord.symm.trans isOther
          rw [List.getElem?_map] at isField
          obtain ⟨field, isOriginal, rfl⟩ := Option.map_eq_some_iff.mp isField
          exact ⟨field, isOriginal, .inl ⟨noText, rfl, rfl⟩⟩
      | inside isOther isMember offence =>
          cases isRecord.symm.trans isOther
          simp only [Layer.map, Layer.members, List.map_map, List.getElem?_map] at isMember
          obtain ⟨field, isField, rfl⟩ := Option.map_eq_some_iff.mp isMember
          exact ⟨field, isField, .inr offence⟩
    · rintro ⟨field, isField, ⟨noText, rfl, rfl⟩ | offence⟩
      · have isMember : (fields.map fun field => (field.1, enter field.2))[position]? =
            some (field.1, enter field.2) := by
          rw [List.getElem?_map, isField]
          rfl
        exact .key isRecord isMember noText
      · refine .inside isRecord ?_ offence
        simp [Layer.map, Layer.members, isField]
  unfolds json given := by
    obtain ⟨images, mapped, same⟩ := of_bind_eq_ok given
    obtain ⟨sameLength, all⟩ := zip_of_mapM mapped
    have entries {member : Value × Value} {image : Text × Json}
        (isPair : (member, image) ∈ (fields.map fun field => (field.1, enter field.2)).zip images) :
        member.1 = .text image.1 ∧ Unfolds member.2 image.2 := by
      rw [List.zip_map_left] at isPair
      obtain ⟨⟨field, given⟩, isSource, same⟩ := List.mem_map.mp isPair
      cases same
      obtain ⟨isText, isPlain⟩ := entry_eq_ok (all field given isSource)
      exact ⟨isText, (members field (List.of_mem_zip isSource).1).unfolds given.2 isPlain⟩
    have sameKeys := keys_eq_iff.mpr ⟨by simpa using sameLength, fun isPair => (entries isPair).1⟩
    have names : (([] ++ images).map Prod.fst).Nodup := nodup_names distinct sameKeys
    rw [foldl_put names] at same
    cases same
    exact .record isRecord sameKeys fun member image isPair => (entries isPair).2

/-- The plain data of a container whose members have an outcome each. -/
def collect (outcome : α → Except Obstacle Json) : Layer Value α → Except Obstacle Json
  | .array items | .tuple items | .set items => return .array (← items.mapM outcome)
  | .record fields => do
      let named ← fields.mapM (entry outcome)
      return .object (named.foldl (fun known image => Json.put image.1 image.2 known) [])

theorem describes_collect {layer : Layer Value α}
    (isLayer : value.layer? = some (layer.map enter)) (new : value ∉ ancestors)
    (distinct : ∀ fields, value.layer? = some (.record fields) → Fields.Distinct fields)
    (members : ∀ member ∈ layer.members,
      Describes (value :: ancestors) (enter member) (outcome member)) :
    Describes ancestors value (collect outcome layer) := by
  cases layer with
  | array items | tuple items | set items => exact describes_row isLayer rfl new members
  | record fields =>
      exact describes_record isLayer new (distinct _ isLayer) fun field isField =>
        members field.2 (List.mem_map_of_mem isField)

end Container

end Value

end ConfigGraph
