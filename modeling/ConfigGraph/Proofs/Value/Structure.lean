import ConfigGraph.Proofs.Keys
import ConfigGraph.Proofs.Value.Record

/-!
# Structure of values

Values of null, booleans, integers and texts, and arrays and records of such, have the same structure
if they agree at every level.  Comparing them takes true for one and false for zero inside of
containers, so it comes to whether they have the same structure once all their booleans are numbers.
-/

namespace ConfigGraph.Value

/-! ## Data and their structure -/

inductive IsAtom : Value → Prop where
  | null : IsAtom null
  | bool (value : Bool) : IsAtom (bool value)
  | int (value : Int) : IsAtom (int value)
  | text (value : Text) : IsAtom (text value)

/-- Atoms, arrays of data, and records of data with atoms for keys, of which none comes twice. -/
inductive IsData : Value → Prop where
  | atom {value : Value} : IsAtom value → IsData value
  | array {items : List Value} : (∀ item ∈ items, IsData item) → IsData (array items)
  | record {fields : Fields} : Fields.Distinct fields → (∀ field ∈ fields, IsAtom field.1) →
      (∀ field ∈ fields, IsData field.2) → IsData (record fields)

/-- The same kind of value at every level: the same atoms, arrays with the same items in order, and
records with the same keys in any order and the same values under them. -/
inductive SameStructure : Value → Value → Prop where
  | atom {value : Value} : IsAtom value → SameStructure value value
  | array {lefts rights : List Value} : lefts.length = rights.length →
      (∀ (index : Nat) (left right : Value), lefts[index]? = some left →
        rights[index]? = some right → SameStructure left right) →
      SameStructure (array lefts) (array rights)
  | record {lefts rights : Fields} :
      (∀ key, key ∈ lefts.map Prod.fst ↔ key ∈ rights.map Prod.fst) →
      (∀ key left right, (key, left) ∈ lefts → (key, right) ∈ rights → SameStructure left right) →
      SameStructure (record lefts) (record rights)

mutual

/-- The value with one in place of true and zero in place of false, at every level. -/
def counted : Value → Value
  | bool value => int (if value then 1 else 0)
  | array items => array (countedItems items)
  | record fields => record (countedFields fields)
  | value => value

def countedItems : List Value → List Value
  | [] => []
  | item :: items => counted item :: countedItems items

def countedFields : Fields → Fields
  | [] => []
  | (key, value) :: fields => (counted key, counted value) :: countedFields fields

end

theorem countedItems_eq (items : List Value) : countedItems items = items.map counted := by
  induction items with
  | nil => rw [countedItems, List.map_nil]
  | cons item items induction => rw [countedItems, induction, List.map_cons]

theorem countedFields_eq (fields : Fields) :
    countedFields fields = fields.map fun field => (counted field.1, counted field.2) := by
  induction fields with
  | nil => rw [countedFields, List.map_nil]
  | cons field fields induction =>
      obtain ⟨key, value⟩ := field
      rw [countedFields, induction, List.map_cons]

theorem counted_array (items : List Value) : counted (array items) = array (items.map counted) := by
  rw [counted, countedItems_eq]

theorem counted_record (fields : Fields) :
    counted (record fields) =
      record (fields.map fun field => (counted field.1, counted field.2)) := by
  rw [counted, countedFields_eq]

/-- Somewhere in two values true meets one or false meets zero. -/
inductive Clash : Value → Value → Prop where
  | left (value : Bool) : Clash (bool value) (counted (bool value))
  | right (value : Bool) : Clash (counted (bool value)) (bool value)
  | item {lefts rights : List Value} {index : Nat} {left right : Value} :
      lefts[index]? = some left → rights[index]? = some right → Clash left right →
      Clash (array lefts) (array rights)
  | key {lefts rights : Fields} {left right : Value × Value} :
      left ∈ lefts → right ∈ rights → Clash left.1 right.1 → Clash (record lefts) (record rights)
  | field {lefts rights : Fields} {left right : Value × Value} :
      left ∈ lefts → right ∈ rights → left.1.counted = right.1.counted → Clash left.2 right.2 →
      Clash (record lefts) (record rights)

/-! ## Atoms -/

theorem IsAtom.counted {value : Value} (isAtom : IsAtom value) : IsAtom value.counted := by
  cases isAtom with
  | null => exact .null
  | bool value => exact .int _
  | int value => exact .int value
  | text value => exact .text value

theorem IsAtom.layer?_eq {value : Value} (isAtom : IsAtom value) : value.layer? = none := by
  cases isAtom <;> rfl

/-- Atoms are equal if they are the same once they are counted. -/
theorem sameScalar_iff_of_atoms {left right : Value} (isLeft : IsAtom left)
    (isRight : IsAtom right) :
    sameScalar left right = true ↔ left.counted = right.counted := by
  cases isLeft <;> cases isRight <;>
    simp [sameScalar, quantity?, number?, counted, Number.same, Number.compare?]

theorem sameKey_iff_of_atoms {left right : Value} (isLeft : IsAtom left) (isRight : IsAtom right) :
    sameKey left right = true ↔ left.counted = right.counted := by
  rw [← sameScalar_iff_of_atoms isLeft isRight]
  cases isLeft <;> cases isRight <;> simp [sameKey, identical]

theorem IsAtom.sameStructure_iff {left right : Value} (isLeft : IsAtom left)
    (isRight : IsAtom right) : SameStructure left right ↔ left = right := by
  constructor
  · intro same
    cases same with
    | atom _ => rfl
    | array _ _ => cases isLeft
    | record _ _ => cases isLeft
  · rintro rfl
    exact .atom isLeft

theorem counted_counted_of_atom {value : Value} (isAtom : IsAtom value) :
    value.counted.counted = value.counted := by
  cases isAtom <;> simp [counted]

/-- Atoms that count the same clash if they are not the same. -/
theorem eq_or_clash {left right : Value} (isLeft : IsAtom left) (isRight : IsAtom right)
    (same : left.counted = right.counted) : left = right ∨ Clash left right := by
  cases isLeft with
  | null => cases isRight <;> simp_all [counted]
  | text value => cases isRight <;> simp_all [counted]
  | bool value =>
      cases isRight with
      | null => simp [counted] at same
      | text _ => simp [counted] at same
      | int number =>
          refine .inr ?_
          have isCount : int number = counted (bool value) := by simpa [counted] using same.symm
          rw [isCount]
          exact .left value
      | bool other => cases value <;> cases other <;> simp_all [counted]
  | int number =>
      cases isRight with
      | null => simp [counted] at same
      | text _ => simp [counted] at same
      | int other => exact .inl (by simpa [counted] using same)
      | bool value =>
          refine .inr ?_
          have isCount : int number = counted (bool value) := by simpa [counted] using same
          rw [isCount]
          exact .right value

theorem IsAtom.of_clash {left right : Value} (isAtom : IsAtom left) (clash : Clash left right) :
    left.counted = right.counted ∧ left ≠ right := by
  cases clash with
  | left value => exact ⟨(counted_counted_of_atom isAtom).symm, by simp [Value.counted]⟩
  | right value => exact ⟨counted_counted_of_atom (.bool value), by simp [Value.counted]⟩
  | item _ _ _ => cases isAtom
  | key _ _ _ => cases isAtom
  | field _ _ _ _ => cases isAtom

/-! ## Fields of data -/

section

variable {fields lefts rights : Fields}

theorem nodup_counted (distinct : Fields.Distinct fields)
    (keys : ∀ field ∈ fields, IsAtom field.1) :
    (fields.map fun field => field.1.counted).Nodup := by
  refine List.pairwise_map.mpr (List.Pairwise.imp_of_mem ?_ distinct)
  intro first second isFirst isSecond differs same
  rw [(sameKey_iff_of_atoms (keys first isFirst) (keys second isSecond)).mpr same] at differs
  cases differs

theorem nodup_keys (distinct : Fields.Distinct fields)
    (keys : ∀ field ∈ fields, IsAtom field.1) : (fields.map Prod.fst).Nodup := by
  have ofCounted := nodup_counted distinct keys
  rw [← Function.comp_def counted Prod.fst, ← List.map_map] at ofCounted
  exact ofCounted.of_map

/-- A value is found under a key by the field whose key counts the same. -/
theorem lookupBy_eq_some_iff (distinct : Fields.Distinct fields)
    (keys : ∀ field ∈ fields, IsAtom field.1) {key : Value} (isAtom : IsAtom key) (value : Value) :
    lookupBy sameKey key fields = some value ↔
      ∃ field ∈ fields, field.1.counted = key.counted ∧ field.2 = value := by
  have same : ∀ field ∈ fields,
      (sameKey key field.1 = true ↔ field.1.counted = key.counted) := by
    intro field member
    rw [sameKey_iff_of_atoms isAtom (keys field member)]
    exact eq_comm
  unfold lookupBy
  rw [Option.map_eq_some_iff]
  constructor
  · rintro ⟨field, found, rfl⟩
    have member := List.mem_of_find?_eq_some found
    have isKey : sameKey key field.1 = true :=
      List.find?_some (p := fun field : Value × Value => sameKey key field.1) found
    exact ⟨field, member, (same field member).mp isKey, rfl⟩
  · rintro ⟨field, member, sameCount, rfl⟩
    cases found : fields.find? fun field => sameKey key field.1 with
    | none =>
        have absent := List.find?_eq_none.mp found field member
        exact absurd ((same field member).mpr sameCount) absent
    | some other =>
        have isOther := List.mem_of_find?_eq_some found
        have isKey : sameKey key other.1 = true :=
          List.find?_some (p := fun field : Value × Value => sameKey key field.1) found
        have sameField := List.inj_on_of_nodup_map (nodup_counted distinct keys) isOther member
          (((same other isOther).mp isKey).trans sameCount.symm)
        exact ⟨other, rfl, by rw [sameField]⟩

end

/-! ## Comparisons that have an answer -/

/-- An answer is given, and it is whether a claim holds. -/
def Decides (answered : Option Bool) (claim : Prop) : Prop :=
  ∃ answer, answered = some answer ∧ (answer = true ↔ claim)

theorem Decides.congr {answered : Option Bool} {claim other : Prop}
    (decides : Decides answered claim) (same : claim ↔ other) : Decides answered other := by
  obtain ⟨answer, isAnswer, holds⟩ := decides
  exact ⟨answer, isAnswer, holds.trans same⟩

theorem decides_some (answer : Bool) : Decides (some answer) (answer = true) :=
  ⟨answer, rfl, Iff.rfl⟩

theorem decides_allTrue {α : Type} {items : List α} {answered : α → Option Bool}
    (claim : α → Prop) (each : ∀ item ∈ items, Decides (answered item) (claim item)) :
    Decides (allTrue (items.map answered)) (∀ item ∈ items, claim item) := by
  induction items with
  | nil => exact ⟨true, rfl, by simp⟩
  | cons item items induction =>
      obtain ⟨⟨answer, isAnswer, holds⟩, others⟩ := List.forall_mem_cons.mp each
      rw [List.map_cons, isAnswer]
      cases answer with
      | false =>
          refine ⟨false, rfl, iff_of_false Bool.false_ne_true ?_⟩
          intro allHold
          cases holds.mpr (allHold item List.mem_cons_self)
      | true =>
          refine (induction others).congr ?_
          rw [List.forall_mem_cons]
          exact (and_iff_right (holds.mp rfl)).symm

theorem decides_sameLists {α : Type} {lefts rights : List α} {same : α → α → Option Bool}
    (claim : α → α → Prop)
    (each : ∀ left ∈ lefts, ∀ right ∈ rights, Decides (same left right) (claim left right)) :
    Decides (sameLists same lefts rights)
      (lefts.length = rights.length ∧ ∀ (index : Nat) (left right : α),
        lefts[index]? = some left → rights[index]? = some right → claim left right) := by
  unfold sameLists
  split
  case isFalse differs => exact ⟨false, rfl, by simp [differs]⟩
  case isTrue sameLength =>
    rw [← List.map_uncurry_zip_eq_zipWith]
    refine (decides_allTrue (fun pair => claim pair.1 pair.2) ?_).congr ?_
    · rintro ⟨left, right⟩ member
      obtain ⟨isLeft, isRight⟩ := List.of_mem_zip member
      exact each left isLeft right isRight
    · rw [and_iff_right sameLength]
      constructor
      · intro allHold index left right isLeft isRight
        refine allHold (left, right) (List.mem_iff_getElem?.mpr ⟨index, ?_⟩)
        exact List.getElem?_zip_eq_some.mpr ⟨isLeft, isRight⟩
      · rintro allHold ⟨left, right⟩ member
        obtain ⟨index, isPair⟩ := List.mem_iff_getElem?.mp member
        obtain ⟨isLeft, isRight⟩ := List.getElem?_zip_eq_some.mp isPair
        exact allHold index left right isLeft isRight

theorem decides_sameFields {lefts rights : Fields} {same : Value → Value → Option Bool}
    (claim : Value → Value → Prop)
    (each : ∀ left ∈ lefts, ∀ right ∈ rights,
      Decides (same left.2 right.2) (claim left.2 right.2)) :
    Decides (sameFields sameKey same lefts rights)
      (lefts.length = rights.length ∧ ∀ left ∈ lefts, ∃ right,
        lookupBy sameKey left.1 rights = some right ∧ claim left.2 right) := by
  unfold sameFields
  split
  case isFalse differs => exact ⟨false, rfl, by simp [differs]⟩
  case isTrue sameLength =>
    refine (decides_allTrue _ fun left isLeft => ?_).congr (and_iff_right sameLength).symm
    cases found : lookupBy sameKey left.1 rights with
    | none => exact ⟨false, rfl, by simp⟩
    | some value =>
        obtain ⟨right, isRight, rfl⟩ := Fields.mem_of_get? found
        refine (each left isLeft right isRight).congr ?_
        simp

/-! ## An equivalence -/

theorem IsData.counted {value : Value} (isData : IsData value) : IsData value.counted := by
  induction isData with
  | atom isAtom => exact .atom isAtom.counted
  | array _ induction =>
      rw [counted_array]
      exact .array (List.forall_mem_map.mpr induction)
  | record distinct keys _ induction =>
      rw [counted_record]
      refine .record (List.pairwise_map.mpr (List.Pairwise.imp_of_mem ?_ distinct))
        (List.forall_mem_map.mpr fun field member => (keys field member).counted)
        (List.forall_mem_map.mpr induction)
      intro first second isFirst isSecond differs
      rw [← Bool.not_eq_true, sameKey_iff_of_atoms (keys first isFirst) (keys second isSecond)]
        at differs
      rw [← Bool.not_eq_true, sameKey_iff_of_atoms (keys first isFirst).counted
        (keys second isSecond).counted, counted_counted_of_atom (keys first isFirst),
        counted_counted_of_atom (keys second isSecond)]
      exact differs

theorem IsData.sameStructure {value : Value} (isData : IsData value) :
    SameStructure value value := by
  induction isData with
  | atom isAtom => exact .atom isAtom
  | array _ induction =>
      refine .array rfl fun index left right isLeft isRight => ?_
      rw [isLeft] at isRight
      cases isRight
      exact induction left (List.mem_of_getElem? isLeft)
  | record distinct keys _ induction =>
      refine .record (fun _ => Iff.rfl) fun key left right isLeft isRight => ?_
      have sameField := List.inj_on_of_nodup_map (nodup_keys distinct keys) isLeft isRight rfl
      cases sameField
      exact induction (key, left) isLeft

theorem SameStructure.symm {left right : Value} (same : SameStructure left right) :
    SameStructure right left := by
  induction same with
  | atom isAtom => exact .atom isAtom
  | array sameLength _ induction =>
      exact .array sameLength.symm fun index left right isLeft isRight =>
        induction index right left isRight isLeft
  | record sameKeys _ induction =>
      exact .record (fun key => (sameKeys key).symm) fun key left right isLeft isRight =>
        induction key right left isRight isLeft

theorem SameStructure.trans {first second third : Value} (same : SameStructure first second)
    (next : SameStructure second third) : SameStructure first third := by
  induction same generalizing third with
  | atom _ => exact next
  | @array firsts seconds sameLength _ induction =>
      cases next with
      | atom isAtom => cases isAtom
      | array nextLength nextItems =>
          refine .array (sameLength.trans nextLength) fun index left right isLeft isRight => ?_
          obtain ⟨inside, _⟩ := List.getElem?_eq_some_iff.mp isLeft
          have isMiddle := List.getElem?_eq_getElem (sameLength ▸ inside : index < seconds.length)
          exact induction index left _ isLeft isMiddle (nextItems index _ right isMiddle isRight)
  | @record firsts seconds sameKeys _ induction =>
      cases next with
      | atom isAtom => cases isAtom
      | record nextKeys nextValues =>
          refine .record (fun key => (sameKeys key).trans (nextKeys key)) ?_
          intro key left right isLeft isRight
          have isKey := (sameKeys key).mp (List.mem_map_of_mem (f := Prod.fst) isLeft)
          obtain ⟨⟨_, middle⟩, isMiddle, rfl⟩ := List.mem_map.mp isKey
          exact induction _ left middle isLeft isMiddle
            (nextValues _ middle right isMiddle isRight)

/-! ## Comparing data -/

theorem identical_of_data {left : Value} (isData : IsData left) (right : Value) :
    identical left right = false := by
  cases isData with
  | atom isAtom => cases isAtom <;> rfl
  | array _ => rfl
  | record _ _ _ => rfl

theorem sizeOf_item_lt {items : List Value} {item : Value} (member : item ∈ items) :
    sizeOf item < sizeOf (array items) := by
  have smaller := List.sizeOf_lt_of_mem member
  simp only [Value.array.sizeOf_spec]
  omega

theorem sizeOf_field_lt {fields : Fields} {field : Value × Value} (member : field ∈ fields) :
    sizeOf field.2 < sizeOf (record fields) := by
  have smaller := List.sizeOf_lt_of_mem member
  obtain ⟨key, value⟩ := field
  simp only [Prod.mk.sizeOf_spec] at smaller
  simp only [Value.record.sizeOf_spec]
  omega

theorem not_sameStructure_of_atom {left right : Value} (isAtom : IsAtom left)
    (isOther : right.layer?.isSome = true) :
    ¬SameStructure left right ∧ ¬SameStructure right left := by
  constructor
  · intro same
    cases same with
    | atom _ =>
        rw [isAtom.layer?_eq] at isOther
        cases isOther
    | array _ _ => cases isAtom
    | record _ _ => cases isAtom
  · intro same
    cases same with
    | atom _ =>
        rw [isAtom.layer?_eq] at isOther
        cases isOther
    | array _ _ => cases isAtom
    | record _ _ => cases isAtom

theorem sameStructure_array_iff {lefts rights : List Value} :
    SameStructure (array lefts) (array rights) ↔
      lefts.length = rights.length ∧ ∀ (index : Nat) (left right : Value),
        lefts[index]? = some left → rights[index]? = some right → SameStructure left right := by
  constructor
  · intro same
    cases same with
    | atom isAtom => cases isAtom
    | array sameLength sameItems => exact ⟨sameLength, sameItems⟩
  · rintro ⟨sameLength, sameItems⟩
    exact .array sameLength sameItems

theorem sameStructure_record_iff {lefts rights : Fields} :
    SameStructure (record lefts) (record rights) ↔
      (∀ key, key ∈ lefts.map Prod.fst ↔ key ∈ rights.map Prod.fst) ∧
        ∀ key left right, (key, left) ∈ lefts → (key, right) ∈ rights →
          SameStructure left right := by
  constructor
  · intro same
    cases same with
    | atom isAtom => cases isAtom
    | record sameKeys sameValues => exact ⟨sameKeys, sameValues⟩
  · rintro ⟨sameKeys, sameValues⟩
    exact .record sameKeys sameValues

theorem counted_array_iff (lefts rights : List Value) :
    (lefts.length = rights.length ∧ ∀ (index : Nat) (left right : Value),
        lefts[index]? = some left → rights[index]? = some right →
          SameStructure left.counted right.counted) ↔
      SameStructure (array lefts).counted (array rights).counted := by
  rw [counted_array, counted_array, sameStructure_array_iff, List.length_map, List.length_map]
  refine and_congr_right fun _ => forall_congr' fun index => ?_
  rw [List.getElem?_map, List.getElem?_map]
  constructor
  · intro sameItems left right isLeft isRight
    obtain ⟨left, foundLeft, rfl⟩ := Option.map_eq_some_iff.mp isLeft
    obtain ⟨right, foundRight, rfl⟩ := Option.map_eq_some_iff.mp isRight
    exact sameItems left right foundLeft foundRight
  · intro sameItems left right isLeft isRight
    exact sameItems _ _ (by rw [isLeft]; rfl) (by rw [isRight]; rfl)

/-- Records have the same structure if they have the same number of fields and those of one are found
in the other. -/
theorem counted_record_iff {lefts rights : Fields} (distinctLefts : Fields.Distinct lefts)
    (leftKeys : ∀ field ∈ lefts, IsAtom field.1) (distinctRights : Fields.Distinct rights)
    (rightKeys : ∀ field ∈ rights, IsAtom field.1) :
    (lefts.length = rights.length ∧ ∀ left ∈ lefts, ∃ right,
        lookupBy sameKey left.1 rights = some right ∧
          SameStructure left.2.counted right.counted) ↔
      SameStructure (record lefts).counted (record rights).counted := by
  have nodup : ∀ {fields : Fields}, Fields.Distinct fields → (∀ field ∈ fields, IsAtom field.1) →
      ((fields.map fun field => (counted field.1, counted field.2)).map Prod.fst).Nodup := by
    intro fields distinct keys
    rw [List.map_map]
    exact nodup_counted distinct keys
  rw [counted_record, counted_record, sameStructure_record_iff,
    ← Keys.related_iff (nodup distinctLefts leftKeys) (nodup distinctRights rightKeys) SameStructure,
    List.length_map, List.length_map, List.forall_mem_map]
  refine and_congr_right fun _ => forall₂_congr fun left isLeft => ?_
  have isFound := lookupBy_eq_some_iff distinctRights rightKeys (leftKeys left isLeft)
  constructor
  · rintro ⟨_, found, same⟩
    obtain ⟨right, isRight, sameKey, rfl⟩ := (isFound _).mp found
    exact ⟨_, List.mem_map_of_mem isRight, sameKey, same⟩
  · rintro ⟨_, member, sameKey, same⟩
    obtain ⟨right, isRight, rfl⟩ := List.mem_map.mp member
    exact ⟨right.2, (isFound _).mpr ⟨right, isRight, sameKey, rfl⟩, same⟩

theorem decides_apart {depth : Nat} {left right : Value}
    (answered : same depth left right = some false)
    (differ : ¬SameStructure left.counted right.counted) :
    Decides (same depth left right) (SameStructure left.counted right.counted) :=
  ⟨false, answered, iff_of_false Bool.false_ne_true differ⟩

theorem decides_atoms (depth : Nat) {left right : Value} (isLeft : IsAtom left)
    (isRight : IsAtom right) :
    Decides (same (depth + 1) left right) (SameStructure left.counted right.counted) := by
  have isScalar : same (depth + 1) left right = some (sameScalar left right) := by
    cases isLeft <;> cases isRight <;> rfl
  rw [isScalar, isLeft.counted.sameStructure_iff isRight.counted]
  exact (decides_some _).congr (sameScalar_iff_of_atoms isLeft isRight)

/-- Containers compare their members: one that is identical needs no depth. -/
def sameMember (depth : Nat) (left right : Value) : Option Bool :=
  if identical left right then some true else same depth left right

theorem decides_arrays {depth : Nat} {lefts rights : List Value}
    (decides : ∀ left ∈ lefts, ∀ right ∈ rights,
      Decides (sameMember depth left right) (SameStructure left.counted right.counted)) :
    Decides (same (depth + 1) (array lefts) (array rights))
      (SameStructure (array lefts).counted (array rights).counted) := by
  change Decides (sameLists (sameMember depth) lefts rights) _
  exact (decides_sameLists (fun left right => SameStructure left.counted right.counted)
    decides).congr (counted_array_iff lefts rights)

theorem decides_records {depth : Nat} {lefts rights : Fields}
    (distinctLefts : Fields.Distinct lefts) (leftKeys : ∀ field ∈ lefts, IsAtom field.1)
    (distinctRights : Fields.Distinct rights) (rightKeys : ∀ field ∈ rights, IsAtom field.1)
    (decides : ∀ left ∈ lefts, ∀ right ∈ rights,
      Decides (sameMember depth left.2 right.2) (SameStructure left.2.counted right.2.counted)) :
    Decides (same (depth + 1) (record lefts) (record rights))
      (SameStructure (record lefts).counted (record rights).counted) := by
  change Decides (sameFields sameKey (sameMember depth) lefts rights) _
  exact (decides_sameFields (fun left right => SameStructure left.counted right.counted)
    decides).congr (counted_record_iff distinctLefts leftKeys distinctRights rightKeys)

/-- A depth above the size of the first value suffices to compare data. -/
theorem decides_same {depth : Nat} {left right : Value} (isLeft : IsData left)
    (isRight : IsData right) (enough : sizeOf left < depth) :
    Decides (same depth left right) (SameStructure left.counted right.counted) := by
  induction depth generalizing left right with
  | zero => exact absurd enough (Nat.not_lt_zero _)
  | succ depth induction =>
      -- Data are never identical, so the depth alone decides about members.
      have member : ∀ left right, IsData left → IsData right → sizeOf left < depth →
          Decides (sameMember depth left right) (SameStructure left.counted right.counted) := by
        intro left right isLeft isRight enough
        rw [sameMember, identical_of_data isLeft, if_neg Bool.false_ne_true]
        exact induction isLeft isRight enough
      cases isLeft with
      | atom isAtom =>
          cases isRight with
          | atom isOther => exact decides_atoms depth isAtom isOther
          | array _ =>
              apply decides_apart (by cases isAtom <;> rfl)
              rw [counted_array]
              exact (not_sameStructure_of_atom isAtom.counted rfl).1
          | record _ _ _ =>
              apply decides_apart (by cases isAtom <;> rfl)
              rw [counted_record]
              exact (not_sameStructure_of_atom isAtom.counted rfl).1
      | @array lefts leftItems =>
          cases isRight with
          | atom isAtom =>
              apply decides_apart (by cases isAtom <;> rfl)
              rw [counted_array]
              exact (not_sameStructure_of_atom isAtom.counted rfl).2
          | array rightItems =>
              apply decides_arrays
              intro left isLeft right isRight
              have smaller := sizeOf_item_lt isLeft
              exact member left right (leftItems left isLeft) (rightItems right isRight) (by omega)
          | record _ _ _ =>
              apply decides_apart rfl
              rw [counted_array, counted_record]
              rintro ⟨⟨⟩⟩
      | @record lefts distinctLefts leftKeys leftValues =>
          cases isRight with
          | atom isAtom =>
              apply decides_apart (by cases isAtom <;> rfl)
              rw [counted_record]
              exact (not_sameStructure_of_atom isAtom.counted rfl).2
          | array _ =>
              apply decides_apart rfl
              rw [counted_array, counted_record]
              rintro ⟨⟨⟩⟩
          | record distinctRights rightKeys rightValues =>
              apply decides_records distinctLefts leftKeys distinctRights rightKeys
              intro left isLeft right isRight
              have smaller := sizeOf_field_lt isLeft
              exact member left.2 right.2 (leftValues left isLeft) (rightValues right isRight)
                (by omega)

/-! ## Booleans among numbers -/

/-- In records with the same keys, keys that count the same are the same. -/
theorem key_eq_of_counted {lefts rights : Fields} (distinct : Fields.Distinct rights)
    (keys : ∀ field ∈ rights, IsAtom field.1)
    (sameKeys : ∀ key, key ∈ lefts.map Prod.fst ↔ key ∈ rights.map Prod.fst)
    {left right : Value × Value} (isLeft : left ∈ lefts) (isRight : right ∈ rights)
    (same : left.1.counted = right.1.counted) : left.1 = right.1 := by
  have isKey := (sameKeys left.1).mp (List.mem_map_of_mem isLeft)
  obtain ⟨other, isOther, sameKey⟩ := List.mem_map.mp isKey
  rw [← sameKey] at same ⊢
  rw [List.inj_on_of_nodup_map (nodup_counted distinct keys) isOther isRight same]

theorem SameStructure.counted {left right : Value} (same : SameStructure left right)
    (isLeft : IsData left) (isRight : IsData right) :
    SameStructure left.counted right.counted := by
  induction same with
  | atom isAtom => exact .atom isAtom.counted
  | array sameLength _ induction =>
      cases isLeft with
      | atom isAtom => cases isAtom
      | array leftItems =>
          cases isRight with
          | atom isAtom => cases isAtom
          | array rightItems =>
              refine (counted_array_iff _ _).mp ⟨sameLength, ?_⟩
              intro index left right isLeft isRight
              exact induction index left right isLeft isRight
                (leftItems left (List.mem_of_getElem? isLeft))
                (rightItems right (List.mem_of_getElem? isRight))
  | @record lefts rights sameKeys _ induction =>
      cases isLeft with
      | atom isAtom => cases isAtom
      | record distinctLefts leftKeys leftValues =>
          cases isRight with
          | atom isAtom => cases isAtom
          | record distinctRights rightKeys rightValues =>
              refine (counted_record_iff distinctLefts leftKeys distinctRights rightKeys).mp ?_
              obtain ⟨sameLength, found⟩ := (Keys.related_iff (nodup_keys distinctLefts leftKeys)
                (nodup_keys distinctRights rightKeys)
                fun left right => SameStructure left.counted right.counted).mpr
                ⟨sameKeys, fun key left right isLeft isRight => induction key left right isLeft
                  isRight (leftValues _ isLeft) (rightValues _ isRight)⟩
              refine ⟨sameLength, fun left isLeft => ?_⟩
              obtain ⟨right, isRight, sameKey, same⟩ := found left isLeft
              refine ⟨right.2, ?_, same⟩
              exact (lookupBy_eq_some_iff distinctRights rightKeys (leftKeys left isLeft) _).mpr
                ⟨right, isRight, by rw [sameKey], rfl⟩

theorem SameStructure.not_clash {left right : Value} (same : SameStructure left right)
    (isRight : IsData right) : ¬Clash left right := by
  induction same with
  | atom isAtom => exact fun clash => (isAtom.of_clash clash).2 rfl
  | array _ _ induction =>
      cases isRight with
      | atom isAtom => cases isAtom
      | array rightItems =>
          intro clash
          cases clash with
          | item isLeft isRight clash =>
              have isItem := rightItems _ (List.mem_of_getElem? isRight)
              exact induction _ _ _ isLeft isRight isItem clash
  | record sameKeys _ induction =>
      cases isRight with
      | atom isAtom => cases isAtom
      | record distinct keys rightValues =>
          intro clash
          cases clash with
          | key isLeft isRight clash =>
              have isKey := (sameKeys _).mp (List.mem_map_of_mem isLeft)
              obtain ⟨other, isOther, sameKey⟩ := List.mem_map.mp isKey
              have isAtom := keys other isOther
              rw [sameKey] at isAtom
              obtain ⟨sameCount, differs⟩ := isAtom.of_clash clash
              exact differs (key_eq_of_counted distinct keys sameKeys isLeft isRight sameCount)
          | @field _ _ left right isLeft isRight sameCount clash =>
              have sameKey := key_eq_of_counted distinct keys sameKeys isLeft isRight sameCount
              exact induction left.1 left.2 right.2 isLeft (sameKey ▸ isRight)
                (rightValues right isRight) clash

theorem sameStructure_of_counted {left right : Value} (isLeft : IsData left)
    (isRight : IsData right) (same : SameStructure left.counted right.counted)
    (noClash : ¬Clash left right) : SameStructure left right := by
  induction isLeft generalizing right with
  | atom isAtom =>
      cases isRight with
      | atom isOther =>
          rw [isAtom.counted.sameStructure_iff isOther.counted] at same
          rcases eq_or_clash isAtom isOther same with rfl | clash
          · exact .atom isAtom
          · exact absurd clash noClash
      | array _ =>
          rw [counted_array] at same
          exact absurd same (not_sameStructure_of_atom isAtom.counted rfl).1
      | record _ _ _ =>
          rw [counted_record] at same
          exact absurd same (not_sameStructure_of_atom isAtom.counted rfl).1
  | @array lefts leftItems induction =>
      cases isRight with
      | atom isAtom =>
          rw [counted_array] at same
          exact absurd same (not_sameStructure_of_atom isAtom.counted rfl).2
      | array rightItems =>
          obtain ⟨sameLength, sameItems⟩ := (counted_array_iff _ _).mpr same
          refine .array sameLength fun index left right isLeft isRight => ?_
          exact induction left (List.mem_of_getElem? isLeft)
            (rightItems right (List.mem_of_getElem? isRight))
            (sameItems index left right isLeft isRight)
            fun clash => noClash (.item isLeft isRight clash)
      | record _ _ _ =>
          rw [counted_array, counted_record] at same
          cases same
  | @record lefts distinctLefts leftKeys leftValues induction =>
      cases isRight with
      | atom isAtom =>
          rw [counted_record] at same
          exact absurd same (not_sameStructure_of_atom isAtom.counted rfl).2
      | array _ =>
          rw [counted_array, counted_record] at same
          cases same
      | @record rights distinctRights rightKeys rightValues =>
          obtain ⟨sameLength, found⟩ :=
            (counted_record_iff distinctLefts leftKeys distinctRights rightKeys).mpr same
          have related := Keys.related_iff (nodup_keys distinctLefts leftKeys)
            (nodup_keys distinctRights rightKeys) SameStructure
          refine sameStructure_record_iff.mpr (related.mp ⟨sameLength, fun left isLeft => ?_⟩)
          obtain ⟨value, isFound, sameValue⟩ := found left isLeft
          obtain ⟨right, isRight, sameCount, rfl⟩ :=
            (lookupBy_eq_some_iff distinctRights rightKeys (leftKeys left isLeft) _).mp isFound
          -- Keys that only count the same would be a boolean that meets a number.
          have sameKey : left.1 = right.1 := by
            rcases eq_or_clash (leftKeys left isLeft) (rightKeys right isRight)
              sameCount.symm with sameKey | clash
            · exact sameKey
            · exact absurd (.key isLeft isRight clash) noClash
          refine ⟨right, isRight, sameKey.symm, ?_⟩
          exact induction left isLeft (rightValues right isRight) sameValue
            fun clash => noClash (.field isLeft isRight sameCount.symm clash)

/-- Data have the same structure if they have the same once they are counted, and no boolean in one
of them meets a number in the other. -/
theorem sameStructure_iff {left right : Value} (isLeft : IsData left) (isRight : IsData right) :
    SameStructure left right ↔ SameStructure left.counted right.counted ∧ ¬Clash left right := by
  constructor
  · exact fun same => ⟨same.counted isLeft isRight, same.not_clash isRight⟩
  · exact fun ⟨same, noClash⟩ => sameStructure_of_counted isLeft isRight same noClash

end ConfigGraph.Value
