import ConfigGraph.Proofs.Value.Json
import ConfigGraph.Proofs.Value.Record
import Mathlib.Data.List.Forall2
import Mathlib.Data.List.Lex
import Mathlib.Logic.Relation

/-!
# Unfoldings of values

Containers can contain each other in a circle, so not every value has an unfolding into plain data.
`Value.Unfolds` says what the unfolding is.  `Value.Offence` says what stands in its way and where,
and `Value.IsFirst` that nothing else comes before it when the value is read from left to right.  A
value unfolds only if it is clean, and nothing stands in the way of a clean value.
-/

namespace ConfigGraph

/-- The members of a container that has no keys. -/
def Layer.row? {κ α : Type} : Layer κ α → Option (List α)
  | .array items | .tuple items | .set items => some items
  | .record _ => none

theorem Layer.members_of_row? {κ α : Type} {layer : Layer κ α} {items : List α}
    (isRow : layer.row? = some items) : layer.members = items := by
  cases layer with
  | array _ | tuple _ | set _ => exact Option.some.inj isRow
  | record _ => cases isRow

namespace Value

/-- The inner value is a member of the container that the outer one is. -/
def Contains (outer inner : Value) : Prop :=
  ∃ layer, outer.layer? = some layer ∧ inner ∈ layer.members

/-- The inner value is the outer one, or in it at some depth. -/
abbrev Reaches : Value → Value → Prop := Relation.ReflTransGen Contains

/-- Values that have no plain form of their own. -/
inductive IsStrange : Value → Prop where
  | function (origin : Origin) (parameters : List Text) (body : Expr) (scope : Scope)
      (source : Source) : IsStrange (.function origin parameters body scope source)
  | foreign (kind : Text) : IsStrange (.foreign kind)

/-- No container in a value contains itself, at any depth; all keys in it are texts; and neither
functions nor unknown things are in it. -/
structure Clean (value : Value) : Prop where
  acyclic : ∀ inner, value.Reaches inner → ¬Relation.TransGen Contains inner inner
  keyed : ∀ inner, value.Reaches inner → ∀ fields, inner.layer? = some (.record fields) →
    ∀ field ∈ fields, ∃ name, field.1 = .text name
  familiar : ∀ inner, value.Reaches inner → ¬inner.IsStrange

/-! ## Unfolding -/

/-- The plain data that a value unfolds into.  A container that is in the value at several places is
repeated at each of them. -/
inductive Unfolds : Value → Json → Prop where
  | null : Unfolds .null .null
  | bool (value : Bool) : Unfolds (.bool value) (.bool value)
  | int (value : Int) : Unfolds (.int value) (.number (.int value))
  | float (value : Float) : Unfolds (.float value) (.number (.float value))
  | nan (origin : Origin) : Unfolds (.nan origin) (.number (.float Binary64.nan))
  | text (value : Text) : Unfolds (.text value) (.string value)
  | bytes (value : List UInt8) :
      Unfolds (.bytes value) (.array (value.map fun byte => .number (.int byte.toNat)))
  | date (value : Date) : Unfolds (.date value) (.string value.isoText)
  | dateTime (value : DateTime) : Unfolds (.dateTime value) (.string value.isoText)
  | row {value : Value} {layer : Layer Value Value} {items : List Value} {images : List Json} :
      value.layer? = some layer → layer.row? = some items → items.length = images.length →
      (∀ item image, (item, image) ∈ items.zip images → Unfolds item image) →
      Unfolds value (.array images)
  | record {value : Value} {fields : Fields} {images : List (Text × Json)} :
      value.layer? = some (.record fields) →
      fields.map Prod.fst = images.map (fun image => .text image.1) →
      (∀ field image, (field, image) ∈ fields.zip images → Unfolds field.2 image.2) →
      Unfolds value (.object images)

variable {value inner : Value} {json : Json}

/-- Data have the keys of a record, in their order, if each entry has that of its field. -/
theorem keys_eq_iff {fields : Fields} {images : List (Text × Json)} :
    (fields.map Prod.fst = images.map fun image => .text image.1) ↔
      fields.length = images.length ∧
        ∀ {field image}, (field, image) ∈ fields.zip images → field.1 = .text image.1 := by
  rw [← List.forall₂_eq_eq_eq, List.forall₂_map_left_iff, List.forall₂_map_right_iff,
    List.forall₂_iff_zip]

theorem exists_image_of_row {layer : Layer Value Value} {items : List Value} {images : List Json}
    (isLayer : value.layer? = some layer) (isRow : layer.row? = some items)
    (sameLength : items.length = images.length) (contains : value.Contains inner) :
    ∃ image, (inner, image) ∈ items.zip images := by
  obtain ⟨other, isOther, member⟩ := contains
  cases isLayer.symm.trans isOther
  rw [Layer.members_of_row? isRow] at member
  exact exists_zip_of_mem_left sameLength member

theorem exists_image_of_record {fields : Fields} {images : List (Text × Json)}
    (isRecord : value.layer? = some (.record fields))
    (sameKeys : fields.map Prod.fst = images.map fun image => .text image.1)
    (contains : value.Contains inner) :
    ∃ field image, field.2 = inner ∧ (field, image) ∈ fields.zip images := by
  obtain ⟨other, isOther, member⟩ := contains
  cases isRecord.symm.trans isOther
  obtain ⟨field, isField, rfl⟩ := List.mem_map.mp member
  obtain ⟨image, isPair⟩ := exists_zip_of_mem_left (keys_eq_iff.mp sameKeys).1 isField
  exact ⟨field, image, rfl, isPair⟩

theorem Unfolds.member (unfolds : Unfolds value json) (contains : value.Contains inner) :
    ∃ image, Unfolds inner image := by
  cases unfolds with
  | row isLayer isRow sameLength members =>
      obtain ⟨image, isPair⟩ := exists_image_of_row isLayer isRow sameLength contains
      exact ⟨image, members inner image isPair⟩
  | record isRecord sameKeys members =>
      obtain ⟨field, image, rfl, isPair⟩ := exists_image_of_record isRecord sameKeys contains
      exact ⟨image.2, members field image isPair⟩
  | null | bool | int | float | nan | text | bytes | date | dateTime =>
      obtain ⟨layer, isLayer, _⟩ := contains
      cases isLayer

theorem Unfolds.reached (unfolds : Unfolds value json) (reaches : value.Reaches inner) :
    ∃ image, Unfolds inner image := by
  induction reaches with
  | refl => exact ⟨json, unfolds⟩
  | tail _ contains induction =>
      obtain ⟨image, unfolds⟩ := induction
      exact unfolds.member contains

/-- A way around from a container leads through a member, around which there is a way too. -/
theorem exists_member_of_cycle (cycle : Relation.TransGen Contains value value) :
    ∃ inner, value.Contains inner ∧ Relation.TransGen Contains inner inner := by
  obtain ⟨inner, contains, back⟩ := Relation.TransGen.head'_iff.mp cycle
  exact ⟨inner, contains, .tail' back contains⟩

theorem Unfolds.acyclic (unfolds : Unfolds value json) :
    ¬Relation.TransGen Contains value value := by
  -- An unfolding has an end, but the way around would go on into each part of it.
  induction unfolds with
  | row isLayer isRow sameLength _ induction =>
      intro cycle
      obtain ⟨inner, contains, cycle⟩ := exists_member_of_cycle cycle
      obtain ⟨image, isPair⟩ := exists_image_of_row isLayer isRow sameLength contains
      exact induction inner image isPair cycle
  | record isRecord sameKeys _ induction =>
      intro cycle
      obtain ⟨inner, contains, cycle⟩ := exists_member_of_cycle cycle
      obtain ⟨field, image, rfl, isPair⟩ := exists_image_of_record isRecord sameKeys contains
      exact induction field image isPair cycle
  | null | bool | int | float | nan | text | bytes | date | dateTime =>
      intro cycle
      obtain ⟨inner, ⟨layer, isLayer, _⟩, _⟩ := exists_member_of_cycle cycle
      cases isLayer

theorem Unfolds.clean (unfolds : Unfolds value json) : value.Clean where
  acyclic inner reaches := by
    obtain ⟨image, unfolds⟩ := unfolds.reached reaches
    exact unfolds.acyclic
  keyed inner reaches fields isRecord field member := by
    obtain ⟨image, unfolds⟩ := unfolds.reached reaches
    cases unfolds with
    | row isLayer isRow =>
        cases isRecord.symm.trans isLayer
        cases isRow
    | record isOther sameKeys =>
        cases isRecord.symm.trans isOther
        have isKey : field.1 ∈ fields.map Prod.fst := List.mem_map_of_mem member
        rw [sameKeys] at isKey
        obtain ⟨image, _, same⟩ := List.mem_map.mp isKey
        exact ⟨image.1, same.symm⟩
    | null | bool | int | float | nan | text | bytes | date | dateTime => cases isRecord
  familiar inner reaches strange := by
    obtain ⟨image, unfolds⟩ := unfolds.reached reaches
    cases strange with
    | function | foreign =>
        cases unfolds with
        | row isLayer => cases isLayer
        | record isRecord => cases isRecord

theorem eq_of_zip {α β : Type} {items : List α} {images others : List β}
    (sameLength : items.length = images.length) (otherLength : items.length = others.length)
    (same : ∀ item image other, (item, image) ∈ items.zip images →
      (item, other) ∈ items.zip others → image = other) :
    images = others := by
  apply List.ext_getElem (sameLength.symm.trans otherLength)
  intro position inImages inOthers
  have inItems : position < items.length := by omega
  have inZip : position < (items.zip images).length := by simp [List.length_zip, *]
  have inOther : position < (items.zip others).length := by simp [List.length_zip, *]
  apply same items[position]
  · rw [← List.getElem_zip (h := inZip)]
    exact List.getElem_mem inZip
  · rw [← List.getElem_zip (h := inOther)]
    exact List.getElem_mem inOther

theorem Unfolds.unique (unfolds : Unfolds value json) {other : Json}
    (unfoldsOther : Unfolds value other) : json = other := by
  induction unfolds generalizing other with
  | row isLayer isRow sameLength _ induction =>
      cases unfoldsOther with
      | row isOther isOtherRow otherLength members =>
          cases isLayer.symm.trans isOther
          cases isRow.symm.trans isOtherRow
          rw [eq_of_zip sameLength otherLength fun item image other isPair isOther =>
            induction item image isPair (members item other isOther)]
      | record isRecord =>
          cases isLayer.symm.trans isRecord
          cases isRow
      | null | bool | int | float | nan | text | bytes | date | dateTime => cases isLayer
  | @record _ fields images isRecord sameKeys _ induction =>
      cases unfoldsOther with
      | row isLayer isRow =>
          cases isRecord.symm.trans isLayer
          cases isRow
      | @record _ _ others isOther otherKeys members =>
          cases isRecord.symm.trans isOther
          rw [eq_of_zip (keys_eq_iff.mp sameKeys).1 (keys_eq_iff.mp otherKeys).1]
          intro field image other isPair isOtherPair
          have isKey := (keys_eq_iff.mp sameKeys).2 isPair
          have sameKey := isKey.symm.trans ((keys_eq_iff.mp otherKeys).2 isOtherPair)
          have sameMember := induction field image isPair (members field other isOtherPair)
          exact Prod.ext (Value.text.inj sameKey) sameMember
      | null | bool | int | float | nan | text | bytes | date | dateTime => cases isRecord
  | null | bool | int | float | nan | text | bytes | date | dateTime =>
      cases unfoldsOther with
      | row isLayer => cases isLayer
      | record isRecord => cases isRecord
      | _ => rfl

/-! ## Offences -/

/-- An obstacle in the way of unfolding a value inside of some containers.  The place is that of the
positions of the members that lead to it; a key is at the position of its field. -/
inductive Offence : List Value → Value → List Nat → Obstacle → Prop where
  | strange {ancestors : List Value} {value : Value} :
      value.IsStrange → Offence ancestors value [] (.unserializable value.typeName)
  | again {ancestors : List Value} {value : Value} {layer : Layer Value Value} :
      value.layer? = some layer → value ∈ ancestors →
      Offence ancestors value [] (.cyclic value.typeName)
  | key {ancestors : List Value} {value : Value} {fields : Fields} {position : Nat}
      {field : Value × Value} :
      value.layer? = some (.record fields) → fields[position]? = some field →
      (∀ name, field.1 ≠ .text name) →
      Offence ancestors value [position] (.nonStringKey field.1.typeName)
  | inside {ancestors : List Value} {value : Value} {layer : Layer Value Value} {position : Nat}
      {member : Value} {place : List Nat} {obstacle : Obstacle} :
      value.layer? = some layer → layer.members[position]? = some member →
      Offence (value :: ancestors) member place obstacle →
      Offence ancestors value (position :: place) obstacle

/-- Of all obstacles that are somewhere, this one comes first from left to right, and from the
outside to the inside.  If two are at one place then that of a key comes before that of a value. -/
structure IsFirst (isAt : List Nat → Obstacle → Prop) (place : List Nat) (obstacle : Obstacle) :
    Prop where
  here : isAt place obstacle
  first : ∀ other later, isAt other later →
    place < other ∨
      place = other ∧ (obstacle = later ∨ ∃ typeName, obstacle = .nonStringKey typeName)

variable {ancestors others : List Value} {place : List Nat} {obstacle : Obstacle}

theorem Offence.mono (offence : Offence ancestors value place obstacle)
    (subset : ancestors ⊆ others) : Offence others value place obstacle := by
  induction offence generalizing others with
  | strange isStrange => exact .strange isStrange
  | again isLayer old => exact .again isLayer (subset old)
  | key isRecord isField noText => exact .key isRecord isField noText
  | inside isLayer isMember _ induction =>
      exact .inside isLayer isMember (induction (List.cons_subset_cons _ subset))

/-- What is in the way of a value is in the way of each container that it is in. -/
theorem Offence.outside (offence : Offence ancestors inner place obstacle)
    (reaches : value.Reaches inner) : ∃ other, Offence ancestors value other obstacle := by
  induction reaches using Relation.ReflTransGen.head_induction_on with
  | refl => exact ⟨place, offence⟩
  | head contains _ induction =>
      obtain ⟨layer, isLayer, member⟩ := contains
      obtain ⟨position, isMember⟩ := List.mem_iff_getElem?.mp member
      obtain ⟨other, offence⟩ := induction
      exact ⟨position :: other, .inside isLayer isMember (offence.mono (List.subset_cons_self _ _))⟩

/-- In a clean value nothing is in the way. -/
theorem Offence.not_clean {root : Value} (offence : Offence ancestors value place obstacle)
    (reaches : root.Reaches value)
    (around : ∀ ancestor ∈ ancestors, Relation.TransGen Contains ancestor value) :
    ¬root.Clean := by
  intro clean
  induction offence with
  | strange isStrange => exact clean.familiar _ reaches isStrange
  | again _ old => exact clean.acyclic _ reaches (around _ old)
  | key isRecord isField noText =>
      obtain ⟨name, same⟩ := clean.keyed _ reaches _ isRecord _ (List.mem_of_getElem? isField)
      exact noText name same
  | inside isLayer isMember _ induction =>
      have contains : Contains _ _ := ⟨_, isLayer, List.mem_of_getElem? isMember⟩
      apply induction (reaches.tail contains)
      intro ancestor isAncestor
      rcases List.mem_cons.mp isAncestor with rfl | isOuter
      · exact .single contains
      · exact (around ancestor isOuter).tail contains

/-- A value with nothing in the way is clean. -/
theorem clean_of_no_offence (free : ∀ place obstacle, ¬Offence [] value place obstacle) :
    value.Clean where
  acyclic inner reaches cycle := by
    obtain ⟨member, contains, back⟩ := Relation.TransGen.head'_iff.mp cycle
    obtain ⟨layer, isLayer, isMember⟩ := contains
    obtain ⟨position, isMember⟩ := List.mem_iff_getElem?.mp isMember
    -- The way back leads into the value again while it is an ancestor.
    obtain ⟨place, offence⟩ := (Offence.again isLayer List.mem_cons_self).outside back
    obtain ⟨place, offence⟩ := (Offence.inside isLayer isMember offence).outside reaches
    exact free _ _ offence
  keyed inner reaches fields isRecord field member := by
    obtain ⟨position, isField⟩ := List.mem_iff_getElem?.mp member
    by_contra noText
    obtain ⟨place, offence⟩ :=
      (Offence.key isRecord isField fun name same => noText ⟨name, same⟩).outside reaches
    exact free _ _ offence
  familiar inner reaches isStrange := by
    obtain ⟨place, offence⟩ := (Offence.strange isStrange).outside reaches
    exact free _ _ offence

theorem clean_iff : value.Clean ↔ ∀ place obstacle, ¬Offence [] value place obstacle := by
  constructor
  · intro clean place obstacle offence
    exact offence.not_clean .refl (List.forall_mem_nil _) clean
  · exact clean_of_no_offence

theorem Offence.typeName_unique {first second : Text}
    (offence : Offence ancestors value place (.nonStringKey first))
    (other : Offence ancestors value place (.nonStringKey second)) : first = second := by
  generalize isObstacle : Obstacle.nonStringKey first = obstacle at offence
  induction offence with
  | strange | again => cases isObstacle
  | key isRecord isField =>
      cases isObstacle
      cases other with
      | key isOther isOtherField =>
          cases isRecord.symm.trans isOther
          cases isField.symm.trans isOtherField
          rfl
      | inside _ _ offence => cases offence
  | inside isLayer isMember offence induction =>
      cases other with
      | key => cases offence <;> cases isObstacle
      | inside isOther isOtherMember other =>
          cases isLayer.symm.trans isOther
          cases isMember.symm.trans isOtherMember
          exact induction other isObstacle

theorem IsFirst.unique {otherPlace : List Nat} {other : Obstacle}
    (first : IsFirst (Offence ancestors value) place obstacle)
    (second : IsFirst (Offence ancestors value) otherPlace other) : obstacle = other := by
  rcases first.first _ _ second.here with before | ⟨rfl, sameOrKey⟩
  · rcases second.first _ _ first.here with after | ⟨rfl, _⟩
    · exact absurd after (lt_asymm before)
    · exact absurd before (lt_irrefl _)
  · rcases sameOrKey with same | ⟨typeName, rfl⟩
    · exact same
    · rcases second.first _ _ first.here with after | ⟨_, same | ⟨otherName, rfl⟩⟩
      · exact absurd after (lt_irrefl _)
      · exact same.symm
      · rw [first.here.typeName_unique second.here]

end Value

end ConfigGraph
