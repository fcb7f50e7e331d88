import ConfigGraph.Proofs.Json.Scalar
import ConfigGraph.Proofs.Json.StringLiteral
import ConfigGraph.Proofs.Keys

/-!
# What is in plain data

The texts and the floats that stand somewhere in plain data, and what must hold of them for the data
to be read back from their text.
-/

namespace ConfigGraph.Json

/-- Plain data are made of their items and the members of their fields. -/
@[induction_eliminator, elab_as_elim]
theorem inductionOn {motive : Json → Prop} (null : motive .null)
    (bool : ∀ value, motive (.bool value)) (number : ∀ value, motive (.number value))
    (string : ∀ value, motive (.string value))
    (array : ∀ items : List Json, (∀ item ∈ items, motive item) → motive (.array items))
    (object : ∀ fields : List (Text × Json), (∀ field ∈ fields, motive field.2) →
      motive (.object fields)) (json : Json) : motive json :=
  @Json.rec motive (fun items => ∀ item ∈ items, motive item)
    (fun fields => ∀ field ∈ fields, motive field.2) (fun field => motive field.2)
    null bool number string array object
    (List.forall_mem_nil _) (fun _ _ first others => List.forall_mem_cons.mpr ⟨first, others⟩)
    (List.forall_mem_nil _) (fun _ _ first others => List.forall_mem_cons.mpr ⟨first, others⟩)
    (fun _ _ member => member) json

mutual

/-- Plain data and all data inside of them. -/
def parts : Json → List Json
  | array items => array items :: partsOfItems items
  | object fields => object fields :: partsOfFields fields
  | json => [json]

/-- Some items and all data inside of them. -/
def partsOfItems : List Json → List Json
  | [] => []
  | item :: items => parts item ++ partsOfItems items

/-- The members of some fields and all data inside of them. -/
def partsOfFields : List (Text × Json) → List Json
  | [] => []
  | (_, member) :: fields => parts member ++ partsOfFields fields

end

theorem self_mem_parts (json : Json) : json ∈ json.parts := by
  cases json <;> simp [parts]

theorem partsOfItems_eq (items : List Json) : partsOfItems items = items.flatMap parts := by
  induction items with
  | nil => rfl
  | cons item items induction => rw [partsOfItems, induction, List.flatMap_cons]

theorem partsOfFields_eq (fields : List (Text × Json)) :
    partsOfFields fields = fields.flatMap fun field => field.2.parts := by
  induction fields with
  | nil => rfl
  | cons field fields induction => rw [partsOfFields, induction, List.flatMap_cons]

theorem parts_item {items : List Json} {item part : Json} (member : item ∈ items)
    (inside : part ∈ item.parts) : part ∈ (array items).parts := by
  rw [parts, partsOfItems_eq]
  exact List.mem_cons_of_mem _ (List.mem_flatMap_of_mem member inside)

theorem parts_field {fields : List (Text × Json)} {field : Text × Json} {part : Json}
    (member : field ∈ fields) (inside : part ∈ field.2.parts) : part ∈ (object fields).parts := by
  rw [parts, partsOfFields_eq]
  exact List.mem_cons_of_mem _ (List.mem_flatMap_of_mem member inside)

/-- No object in the data has a name twice. -/
def Keyed (json : Json) : Prop :=
  ∀ fields, object fields ∈ json.parts → (fields.map (·.1)).Nodup

theorem keyed_of_parts {json : Json} (alone : json.parts = [json])
    (noObject : ∀ fields, json ≠ object fields) : json.Keyed := by
  intro fields inside
  rw [alone, List.mem_singleton] at inside
  exact absurd inside.symm (noObject fields)

theorem keyed_array {items : List Json} :
    (array items).Keyed ↔ ∀ item ∈ items, item.Keyed := by
  unfold Keyed
  rw [parts, partsOfItems_eq]
  constructor
  · intro keyed item member fields inside
    exact keyed fields (List.mem_cons_of_mem _ (List.mem_flatMap_of_mem member inside))
  · intro keyed fields inside
    rcases List.mem_cons.mp inside with same | inside
    · cases same
    · obtain ⟨item, member, inside⟩ := List.mem_flatMap.mp inside
      exact keyed item member fields inside

/-- The names of fields are distinct, and so are those in their members. -/
def FieldsKeyed (fields : List (Text × Json)) : Prop :=
  (fields.map (·.1)).Nodup ∧ ∀ field ∈ fields, field.2.Keyed

theorem keyed_object {fields : List (Text × Json)} :
    (object fields).Keyed ↔ FieldsKeyed fields := by
  unfold FieldsKeyed Keyed
  rw [parts, partsOfFields_eq]
  constructor
  · intro keyed
    refine ⟨keyed fields List.mem_cons_self, fun field member others inside => ?_⟩
    exact keyed others (List.mem_cons_of_mem _ (List.mem_flatMap.mpr ⟨field, member, inside⟩))
  · rintro ⟨distinct, keyed⟩ others inside
    rcases List.mem_cons.mp inside with same | inside
    · cases same
      exact distinct
    · obtain ⟨field, member, inside⟩ := List.mem_flatMap.mp inside
      exact keyed field member others inside

theorem fieldsKeyed_nil : FieldsKeyed [] := ⟨List.nodup_nil, List.forall_mem_nil _⟩

/-- A name that is new goes behind the others. -/
theorem put_of_new {α : Type} {name : Text} {member : α} {fields : List (Text × α)}
    (new : name ∉ fields.map (·.1)) : put name member fields = fields ++ [(name, member)] := by
  induction fields with
  | nil => rfl
  | cons field fields induction =>
      rw [List.map_cons, List.mem_cons, not_or] at new
      rw [put, if_neg fun same => new.1 same.symm, induction new.2, List.cons_append]

theorem keys_put {α : Type} (name : Text) (member : α) (fields : List (Text × α)) :
    ((put name member fields).map (·.1)).Perm ((fields.map (·.1)).insert name) := by
  induction fields with
  | nil => exact .refl _
  | cons field fields induction =>
      rw [put]
      split
      case isTrue same =>
        subst same
        simp
      case isFalse differs => exact Keys.perm_insert_cons differs induction

theorem FieldsKeyed.put {fields : List (Text × Json)} (keyed : FieldsKeyed fields) (name : Text)
    {member : Json} (memberKeyed : member.Keyed) : FieldsKeyed (put name member fields) := by
  obtain ⟨distinct, keyed⟩ := keyed
  refine ⟨(keys_put name member fields).nodup_iff.mpr distinct.insert, ?_⟩
  clear distinct
  induction fields with
  | nil => exact List.forall_mem_singleton.mpr memberKeyed
  | cons field fields induction =>
      obtain ⟨fieldKeyed, othersKeyed⟩ := List.forall_mem_cons.mp keyed
      rw [Json.put]
      split
      case isTrue => exact List.forall_mem_cons.mpr ⟨memberKeyed, othersKeyed⟩
      case isFalse => exact List.forall_mem_cons.mpr ⟨fieldKeyed, induction othersKeyed⟩

/-- The texts that stand at the top of plain data: the string that they are, or the names of their
fields. -/
def ownTexts : Json → List Text
  | string value => [value]
  | object fields => fields.map (·.1)
  | _ => []

/-- All strings and names in plain data. -/
def texts (json : Json) : List Text := json.parts.flatMap ownTexts

/-- The float that plain data are. -/
def float? : Json → Option Float
  | number (.float value) => some value
  | _ => none

/-- All floats in plain data. -/
def floats (json : Json) : List Float := json.parts.filterMap float?

/-- The integer that plain data are. -/
def integer? : Json → Option Int
  | number (.int value) => some value
  | _ => none

/-- All integers in plain data. -/
def integers (json : Json) : List Int := json.parts.filterMap integer?

/-- No integer in plain data has too many digits to be written. -/
def Writable (json : Json) : Prop := ∀ value ∈ json.integers, isWritable value = true

instance (json : Json) : Decidable json.Writable :=
  inferInstanceAs (Decidable (∀ value ∈ json.integers, isWritable value = true))

/-- The number that a text spells as a whole. -/
def number? (text : Text) : Option Number :=
  match readScalar text with
  | .ok (number quantity, []) => some quantity
  | _ => none

/-- The text of a float reads back as the float. -/
def ReadsBack (value : Float) : Prop := number? (encodeNumber (.float value)) = some (.float value)

instance (value : Float) : Decidable (ReadsBack value) :=
  inferInstanceAs (Decidable (number? _ = some _))

theorem ReadsBack.readScalar {value : Float} (readsBack : ReadsBack value) :
    readScalar (encodeNumber (.float value)) = .ok (number (.float value), []) := by
  unfold ReadsBack number? at readsBack
  split at readsBack
  case h_1 quantity read =>
    cases readsBack
    exact read
  case h_2 => cases readsBack

/-- Plain data that read back: objects do not have a name twice, no high surrogate stands in front of
a low one, integers do not have too many digits, and floats read back. -/
structure Legible (json : Json) : Prop where
  keyed : json.Keyed
  unpaired : ∀ text ∈ json.texts, text.Unpaired
  writable : json.Writable
  readsBack : ∀ value ∈ json.floats, ReadsBack value

/-- What holds of all parts holds of fewer. -/
theorem Legible.of_parts {json part : Json} (legible : json.Legible)
    (inside : part.parts ⊆ json.parts) : part.Legible where
  keyed fields member := legible.keyed fields (inside member)
  unpaired text member := by
    obtain ⟨own, isInside, isOwn⟩ := List.mem_flatMap.mp member
    exact legible.unpaired text (List.mem_flatMap_of_mem (inside isInside) isOwn)
  writable value member := by
    obtain ⟨own, isInside, isOwn⟩ := List.mem_filterMap.mp member
    exact legible.writable value (List.mem_filterMap.mpr ⟨own, inside isInside, isOwn⟩)
  readsBack value member := by
    obtain ⟨own, isInside, isOwn⟩ := List.mem_filterMap.mp member
    exact legible.readsBack value (List.mem_filterMap.mpr ⟨own, inside isInside, isOwn⟩)

theorem Legible.item {items : List Json} (legible : (array items).Legible) {item : Json}
    (member : item ∈ items) : item.Legible :=
  legible.of_parts fun _ => parts_item member

theorem Legible.field {fields : List (Text × Json)} (legible : (object fields).Legible)
    {field : Text × Json} (member : field ∈ fields) : field.2.Legible :=
  legible.of_parts fun _ => parts_field member

theorem Legible.distinct {fields : List (Text × Json)} (legible : (object fields).Legible) :
    (fields.map (·.1)).Nodup := legible.keyed fields (self_mem_parts _)

theorem Legible.unpaired_own {json : Json} (legible : json.Legible) :
    ∀ text ∈ json.ownTexts, text.Unpaired := fun text member =>
  legible.unpaired text (List.mem_flatMap_of_mem (self_mem_parts json) member)

theorem Legible.writable_own {value : Int} (legible : (number (.int value)).Legible) :
    isWritable value = true :=
  legible.writable value (List.mem_filterMap.mpr ⟨_, self_mem_parts _, rfl⟩)

theorem Legible.readsBack_own {value : Float} (legible : (number (.float value)).Legible) :
    ReadsBack value :=
  legible.readsBack value (List.mem_filterMap.mpr ⟨_, self_mem_parts _, rfl⟩)

end ConfigGraph.Json
