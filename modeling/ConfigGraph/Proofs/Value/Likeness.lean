import ConfigGraph.Proofs.Value.Overlay

/-!
# Equality at every level

Two values are alike if they have equal values at all paths of keys, and records with the same keys
in the same order.  For records that are well keyed and not tied this is to be equal.
-/

namespace ConfigGraph

namespace Value

/-- The keys of a record, in order, or a value of another kind. -/
inductive Face where
  | record (keys : List Value)
  | other (value : Value)

def face (value : Value) : Face :=
  match value.fields? with
  | some fields => .record (fields.map Prod.fst)
  | none => .other value

/-- Values that are equal at every level, with the keys of records in the same order. -/
def Alike (left right : Value) : Prop :=
  ∀ path, (left.at? path).map face = (right.at? path).map face

theorem Alike.refl (value : Value) : value.Alike value := fun _ => rfl

theorem Alike.symm {left right : Value} (alike : left.Alike right) : right.Alike left :=
  fun path => (alike path).symm

theorem Alike.trans {first second third : Value} (alike : first.Alike second)
    (next : second.Alike third) : first.Alike third :=
  fun path => (alike path).trans (next path)

theorem rel_refl (value : Option Value) : Option.Rel Alike value value := by
  cases value with
  | none => exact .none
  | some value => exact .some (.refl value)

theorem face_of_record {value : Value} {fields : Fields} (isRecord : value.fields? = some fields) :
    value.face = .record (fields.map Prod.fst) := by
  unfold face
  rw [isRecord]

/-- A tied record is like the one that has its fields. -/
theorem alike_record {value : Value} {fields : Fields} (isRecord : value.fields? = some fields) :
    value.Alike (record fields) := by
  intro path
  cases path with
  | nil =>
      change some value.face = some (record fields).face
      rw [face_of_record isRecord]
      rfl
  | cons key path => rw [at?_cons_of_record isRecord]

theorem bind_at?_of_rel {first second : Option Value} (alike : Option.Rel Alike first second)
    (path : List Value) :
    (first.bind fun inner => inner.at? path).map face =
      (second.bind fun inner => inner.at? path).map face := by
  cases alike with
  | none => rfl
  | some inner => exact inner path

theorem alike_of_lookups {lefts rights : Fields}
    (sameKeys : lefts.map Prod.fst = rights.map Prod.fst)
    (alike : ∀ key, Option.Rel Alike (Fields.get? lefts key) (Fields.get? rights key)) :
    (record lefts).Alike (record rights) := by
  intro path
  cases path with
  | nil => exact congrArg (fun keys => some (Face.record keys)) sameKeys
  | cons key path =>
      rw [at?_cons rfl, at?_cons rfl]
      exact bind_at?_of_rel (alike key) path

theorem Alike.lookup {lefts rights : Fields} (alike : (record lefts).Alike (record rights))
    (key : Value) : Option.Rel Alike (Fields.get? lefts key) (Fields.get? rights key) := by
  have inside : ∀ path,
      ((Fields.get? lefts key).bind fun inner => inner.at? path).map face =
        ((Fields.get? rights key).bind fun inner => inner.at? path).map face :=
    fun path => alike (key :: path)
  generalize Fields.get? lefts key = first at inside
  generalize Fields.get? rights key = second at inside
  cases first with
  | none =>
      cases second with
      | none => exact .none
      | some _ => cases inside []
  | some _ =>
      cases second with
      | none => cases inside []
      | some _ => exact .some inside

theorem eq_of_rel {first second : Option Value} (alike : Option.Rel Alike first second)
    (same : ∀ left right, first = some left → second = some right → left.Alike right →
      left = right) : first = second := by
  cases alike with
  | none => rfl
  | some alike => rw [same _ _ rfl rfl alike]

theorem Alike.eq_or_records {left right : Value} (alike : left.Alike right) :
    left = right ∨
      ∃ lefts rights, left.fields? = some lefts ∧ right.fields? = some rights := by
  have sameFace : left.face = right.face := Option.some.inj (alike [])
  unfold face at sameFace
  cases isLeft : left.fields? with
  | none =>
      cases isRight : right.fields? with
      | none =>
          rw [isLeft, isRight] at sameFace
          exact .inl (Face.other.inj sameFace)
      | some rights =>
          rw [isLeft, isRight] at sameFace
          cases sameFace
  | some lefts =>
      cases isRight : right.fields? with
      | none =>
          rw [isLeft, isRight] at sameFace
          cases sameFace
      | some rights => exact .inr ⟨lefts, rights, rfl, rfl⟩

end Value

namespace Fields

open Value (sameKey Alike)

/-! ## Records with keys that can be looked up -/

/-- Records whose nesting ends, in which no key comes twice and each key is the same as itself. -/
inductive WellKeyed : Fields → Prop where
  | intro {fields : Fields} :
      Distinct fields → (∀ field ∈ fields, sameKey field.1 field.1 = true) →
      (∀ field ∈ fields, ∀ inner, field.2.fields? = some inner → WellKeyed inner) →
      WellKeyed fields

variable {fields left right merged first second third : Fields}

theorem WellKeyed.distinct (wellKeyed : WellKeyed fields) : Distinct fields := by
  cases wellKeyed with
  | intro distinct _ _ => exact distinct

theorem WellKeyed.self (wellKeyed : WellKeyed fields) :
    ∀ field ∈ fields, sameKey field.1 field.1 = true := by
  cases wellKeyed with
  | intro _ self _ => exact self

theorem WellKeyed.nested (wellKeyed : WellKeyed fields) : Nested fields := by
  induction wellKeyed with
  | intro distinct _ _ induction => exact .intro distinct induction

theorem WellKeyed.inner {key value : Value} {inner : Fields} (wellKeyed : WellKeyed fields)
    (found : get? fields key = some value) (isRecord : value.fields? = some inner) :
    WellKeyed inner := by
  cases wellKeyed with
  | intro _ _ inners =>
      obtain ⟨field, member, rfl⟩ := mem_of_get? found
      exact inners field member inner isRecord

/-- A field is found by its key. -/
theorem get?_of_mem (distinct : Distinct fields) {field : Value × Value} (member : field ∈ fields)
    (self : sameKey field.1 field.1 = true) : get? fields field.1 = some field.2 := by
  induction fields with
  | nil => cases member
  | cons head fields induction =>
      obtain ⟨differs, others⟩ := List.pairwise_cons.mp distinct
      rw [get?_cons]
      rcases List.mem_cons.mp member with rfl | isLater
      · rw [if_pos self]
      · have notHead : ¬sameKey field.1 head.1 = true := by
          rw [sameKey_comm, differs field isLater]
          exact Bool.false_ne_true
        rw [if_neg notHead]
        exact induction others isLater

/-- Records with the same keys in order and the same values under them are the same. -/
theorem eq_of_lookups (wellLeft : WellKeyed left) (wellRight : WellKeyed right)
    (sameKeys : left.map Prod.fst = right.map Prod.fst)
    (same : ∀ key, get? left key = get? right key) : left = right := by
  have sameLength : left.length = right.length := by
    simpa using congrArg List.length sameKeys
  refine List.ext_getElem sameLength fun index inLeft inRight => ?_
  have sameKey := List.getElem_of_eq sameKeys (by simpa using inLeft : index < _)
  rw [List.getElem_map, List.getElem_map] at sameKey
  have isLeft := get?_of_mem wellLeft.distinct (List.getElem_mem inLeft)
    (wellLeft.self _ (List.getElem_mem inLeft))
  have isRight := get?_of_mem wellRight.distinct (List.getElem_mem inRight)
    (wellRight.self _ (List.getElem_mem inRight))
  rw [same, sameKey, isRight] at isLeft
  exact Prod.ext sameKey (Option.some.inj isLeft).symm

/-! ## Like records that are not tied -/

/-- No record that is reached through records is tied. -/
def Untied (fields : Fields) : Prop :=
  ∀ path value inner, (Value.record fields).at? path = some value →
    value.fields? = some inner → value = .record inner

theorem Untied.inner {key : Value} {inner : Fields} (untied : Untied fields)
    (found : get? fields key = some (.record inner)) : Untied inner := by
  intro path value deeper isAt
  refine untied (key :: path) value deeper ?_
  rw [Value.at?_cons rfl, found]
  exact isAt

theorem Untied.of_get? {key value : Value} {inner : Fields} (untied : Untied fields)
    (found : get? fields key = some value) (isRecord : value.fields? = some inner) :
    value = .record inner := by
  refine untied [key] value inner ?_ isRecord
  rw [Value.at?_cons rfl, found]
  rfl

theorem keys_of_alike (alike : (Value.record left).Alike (.record right)) :
    left.map Prod.fst = right.map Prod.fst :=
  Value.Face.record.inj (Option.some.inj (alike []))

/-- Where nothing is tied, to be equal at every level is to be equal. -/
theorem eq_of_alike (wellLeft : WellKeyed left) (wellRight : WellKeyed right)
    (untiedLeft : Untied left) (untiedRight : Untied right)
    (alike : (Value.record left).Alike (.record right)) : left = right := by
  induction wellLeft generalizing right with
  | @intro left distinct self inners induction =>
      refine eq_of_lookups (.intro distinct self inners) wellRight (keys_of_alike alike) ?_
      intro key
      apply Value.eq_of_rel (alike.lookup key)
      intro value other isLeft isRight valueAlike
      rcases valueAlike.eq_or_records with same | ⟨inner, otherInner, isRecord, isOther⟩
      · exact same
      · cases untiedLeft.of_get? isLeft isRecord
        cases untiedRight.of_get? isRight isOther
        obtain ⟨field, member, isField⟩ := mem_of_get? isLeft
        rw [induction field member inner (by rw [isField]; rfl) (wellRight.inner isRight rfl)
          (untiedLeft.inner isLeft) (untiedRight.inner isRight) valueAlike]

end Fields

end ConfigGraph
