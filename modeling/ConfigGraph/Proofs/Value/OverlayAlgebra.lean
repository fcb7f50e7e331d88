import ConfigGraph.Proofs.Value.Likeness

/-!
# The algebra of laying records over records

The empty record changes nothing, a record laid over itself or laid twice changes nothing more, and
of three records it does not matter which two are merged first, unless the one in the middle has
something else where the outer two have records.
-/

namespace ConfigGraph

namespace Fields

open Value (sameKey Alike)

variable {fields left right merged first second third : Fields}

/-! ## One value over another -/

section

variable {merge : Fields → Fields → Option Fields} {below : Option Value} {above : Value}
  {lower upper : Fields}

theorem combine_records (isLower : below.bind Value.fields? = some lower)
    (isUpper : above.fields? = some upper) :
    combine merge below above = (merge lower upper).map .record := by
  unfold combine
  rw [isLower, isUpper]

theorem combine_of_other (isOther : above.fields? = none) (below : Option Value) :
    combine merge below above = some above := by
  unfold combine
  rw [isOther]
  cases below.bind Value.fields? <;> rfl

theorem combine_of_fresh (noRecord : below.bind Value.fields? = none) (above : Value) :
    combine merge below above = some above := by
  unfold combine
  rw [noRecord]

theorem Overlaid.lookup (overlaid : Overlaid merge left right merged) {key : Value}
    (isAbove : get? right key = some above) :
    get? merged key = combine merge (get? left key) above := by
  obtain ⟨value, isValue, isMerged⟩ := overlaid.combined key above isAbove
  rw [isMerged, isValue]

theorem Overlaid.isNone (overlaid : Overlaid merge left right merged) (key : Value) :
    (get? merged key).isNone = ((get? left key).isNone && (get? right key).isNone) := by
  cases isAbove : get? right key with
  | none => rw [overlaid.kept key isAbove, Option.isNone_none, Bool.and_true]
  | some above =>
      obtain ⟨value, _, isMerged⟩ := overlaid.combined key above isAbove
      rw [isMerged, Option.isNone_some, Option.isNone_some, Bool.and_false]

end

/-! ## The empty record -/

theorem put_of_new {key : Value} (new : get? fields key = none) (value : Value) :
    put key value fields = fields ++ [(key, value)] := by
  induction fields with
  | nil => rfl
  | cons field fields induction =>
      rw [get?_cons] at new
      unfold put
      cases isHere : sameKey key field.1 with
      | true =>
          rw [isHere] at new
          cases new
      | false =>
          rw [isHere] at new
          rw [if_neg Bool.false_ne_true, induction new, List.cons_append]

theorem foldlM_overlay_of_new {merge : Fields → Fields → Option Fields} {done : Fields}
    (distinct : Distinct fields) (new : ∀ field ∈ fields, get? done field.1 = none) :
    fields.foldlM (overlay merge) done = some (done ++ fields) := by
  induction fields generalizing done with
  | nil => exact congrArg some (List.append_nil done).symm
  | cons field fields induction =>
      obtain ⟨differs, others⟩ := List.pairwise_cons.mp distinct
      obtain ⟨newFirst, newOthers⟩ := List.forall_mem_cons.mp new
      have stillNew : ∀ other ∈ fields, get? (put field.1 field.2 done) other.1 = none := by
        intro other member
        have notFirst : sameKey other.1 field.1 = false := by
          rw [sameKey_comm]
          exact differs other member
        rw [get?_put_other notFirst]
        exact newOthers other member
      rw [List.foldlM_cons, overlay_eq, newFirst, combine_of_fresh rfl]
      refine (induction others stillNew).trans ?_
      rw [put_of_new newFirst, List.append_assoc, List.singleton_append]

theorem merge_empty_left (distinct : Distinct fields) (depth : Nat) :
    merge (depth + 1) [] fields = some fields := by
  rw [merge]
  exact foldlM_overlay_of_new distinct fun _ _ => rfl

theorem merge_empty_right (depth : Nat) (fields : Fields) :
    merge (depth + 1) fields [] = some fields := rfl

/-! ## Merged records are well keyed -/

theorem mergedKeys_eq (lower upper : Fields) :
    mergedKeys lower upper =
      lower.map Prod.fst ++ (upper.map Prod.fst).filter fun key => (get? lower key).isNone := by
  rw [mergedKeys, List.filter_map]
  rfl

theorem distinct_iff (fields : Fields) :
    Distinct fields ↔ (fields.map Prod.fst).Pairwise fun key other => sameKey key other = false :=
  List.pairwise_map (R := fun key other => sameKey key other = false).symm

theorem distinct_of_keys (distinctLeft : Distinct left) (distinctRight : Distinct right)
    (keys : merged.map Prod.fst = mergedKeys left right) : Distinct merged := by
  rw [distinct_iff] at distinctLeft distinctRight ⊢
  rw [keys, mergedKeys_eq, List.pairwise_append]
  refine ⟨distinctLeft, distinctRight.filter _, ?_⟩
  intro key isOld other isNew
  obtain ⟨field, member, rfl⟩ := List.mem_map.mp isOld
  have absent := Option.isNone_iff_eq_none.mp (List.mem_filter.mp isNew).2
  rw [sameKey_comm]
  exact get?_eq_none_iff.mp absent field member

theorem self_of_keys (selfLeft : ∀ field ∈ left, sameKey field.1 field.1 = true)
    (selfRight : ∀ field ∈ right, sameKey field.1 field.1 = true)
    (keys : merged.map Prod.fst = mergedKeys left right) :
    ∀ field ∈ merged, sameKey field.1 field.1 = true := by
  intro field member
  have isKey := List.mem_map_of_mem (f := Prod.fst) member
  rw [keys, mergedKeys_eq, List.mem_append] at isKey
  rcases isKey with isOld | isNew
  · obtain ⟨original, isOriginal, same⟩ := List.mem_map.mp isOld
    rw [← same]
    exact selfLeft original isOriginal
  · obtain ⟨original, isOriginal, same⟩ := List.mem_map.mp (List.mem_filter.mp isNew).1
    rw [← same]
    exact selfRight original isOriginal

theorem WellKeyed.merge {depth : Nat} (wellLeft : WellKeyed left) (wellRight : WellKeyed right)
    (performed : Fields.merge depth left right = some merged) : WellKeyed merged := by
  induction wellRight generalizing left merged depth with
  | @intro right distinct self inners induction =>
      have wellRight : WellKeyed right := .intro distinct self inners
      have keys := keys_of_merge wellRight.nested performed
      have mergedDistinct := distinct_of_keys wellLeft.distinct distinct keys
      have mergedSelf := self_of_keys wellLeft.self self keys
      refine .intro mergedDistinct mergedSelf fun field member inner isRecord => ?_
      cases depth with
      | zero => cases performed
      | succ depth =>
          have overlaid := overlaid_of_merge wellRight.nested performed
          have found := get?_of_mem mergedDistinct member (mergedSelf field member)
          cases isAbove : get? right field.1 with
          | none =>
              rw [overlaid.kept _ isAbove] at found
              exact wellLeft.inner found isRecord
          | some above =>
              rw [overlaid.lookup isAbove] at found
              cases isUpper : above.fields? with
              | none =>
                  rw [combine_of_other isUpper] at found
                  cases found
                  rw [isRecord] at isUpper
                  cases isUpper
              | some upper =>
                  cases isLower : (get? left field.1).bind Value.fields? with
                  | none =>
                      rw [combine_of_fresh isLower] at found
                      cases found
                      exact wellRight.inner isAbove isRecord
                  | some lower =>
                      rw [combine_records isLower isUpper] at found
                      obtain ⟨below, isBelow, isLower⟩ := Option.bind_eq_some_iff.mp isLower
                      obtain ⟨original, isOriginal, rfl⟩ := mem_of_get? isAbove
                      obtain ⟨result, isResult, same⟩ := Option.map_eq_some_iff.mp found
                      rw [← same] at isRecord
                      cases isRecord
                      exact induction original isOriginal upper isUpper
                        (wellLeft.inner isBelow isLower) isResult

/-! ## A record laid twice -/

/-- A record that is there already when it is laid a second time over any one. -/
def Absorbed (depth : Nat) (right : Fields) : Prop :=
  ∀ left once twice, merge depth left right = some once → merge depth once right = some twice →
    (Value.record twice).Alike (.record once)

theorem alike_of_combine_twice {depth : Nat} {below : Option Value} {above value other : Value}
    (isValue : combine (merge depth) below above = some value)
    (isOther : combine (merge depth) (some value) above = some other)
    (inner : ∀ upper, above.fields? = some upper → Distinct upper ∧ Absorbed depth upper) :
    other.Alike value := by
  cases isUpper : above.fields? with
  | none =>
      rw [combine_of_other isUpper] at isValue isOther
      cases isValue
      cases isOther
      exact .refl _
  | some upper =>
      obtain ⟨distinct, absorbed⟩ := inner upper isUpper
      cases isLower : below.bind Value.fields? with
      | none =>
          -- The value is alone at first, as if it were laid over the empty record.
          rw [combine_of_fresh isLower] at isValue
          cases isValue
          have isBelow : (some above).bind Value.fields? = some upper := isUpper
          rw [combine_records isBelow isUpper] at isOther
          obtain ⟨result, isResult, rfl⟩ := Option.map_eq_some_iff.mp isOther
          cases depth with
          | zero => cases isResult
          | succ depth =>
              have alone := merge_empty_left distinct depth
              exact (absorbed [] upper result alone isResult).trans
                (Value.alike_record isUpper).symm
      | some lower =>
          rw [combine_records isLower isUpper] at isValue
          obtain ⟨once, isOnce, rfl⟩ := Option.map_eq_some_iff.mp isValue
          rw [combine_records rfl isUpper] at isOther
          obtain ⟨twice, isTwice, rfl⟩ := Option.map_eq_some_iff.mp isOther
          exact absorbed lower once twice isOnce isTwice

theorem WellKeyed.absorbed (wellKeyed : WellKeyed right) (depth : Nat) : Absorbed depth right := by
  induction wellKeyed generalizing depth with
  | @intro right distinct self inners induction =>
      have nested : Nested right := (WellKeyed.intro distinct self inners).nested
      intro left once twice first second
      cases depth with
      | zero => cases first
      | succ depth =>
          have overlaid := overlaid_of_merge nested first
          have overlaidAgain := overlaid_of_merge nested second
          refine Value.alike_of_lookups ?_ fun key => ?_
          · have noneNew : (right.filter fun field => (get? once field.1).isNone) = [] := by
              refine List.filter_eq_nil_iff.mpr fun field member => ?_
              rw [overlaid.isNone, get?_of_mem distinct member (self field member),
                Option.isNone_some, Bool.and_false]
              exact Bool.false_ne_true
            rw [overlaidAgain.keys, noneNew, List.map_nil, List.append_nil]
          · cases isAbove : get? right key with
            | none =>
                rw [overlaidAgain.kept key isAbove]
                exact Value.rel_refl _
            | some above =>
                obtain ⟨value, isValue, isOnce⟩ := overlaid.combined key above isAbove
                obtain ⟨other, isOther, isTwice⟩ := overlaidAgain.combined key above isAbove
                rw [isOnce] at isOther
                rw [isOnce, isTwice]
                refine .some (alike_of_combine_twice isValue isOther fun upper isUpper => ?_)
                obtain ⟨field, member, rfl⟩ := mem_of_get? isAbove
                exact ⟨(inners field member upper isUpper).distinct,
                  induction field member upper isUpper depth⟩

/-! ## Three records -/

/-- The second record has nothing else at a path where the first and the third have records. -/
def Unbroken (first second third : Fields) : Prop :=
  ∀ path, ((Value.record first).fieldsAt? path).isSome = true →
    ((Value.record third).fieldsAt? path).isSome = true → ¬(Value.record second).HasOtherAt path

/-- Of three records it does not matter which two are merged first. -/
def Regroups (depth : Nat) (first second third : Fields) : Prop :=
  ∀ lower left upper right, merge depth first second = some lower →
    merge depth lower third = some left → merge depth second third = some upper →
    merge depth first upper = some right → (Value.record left).Alike (.record right)

theorem fieldsAt?_cons {key value : Value} {inner : Fields} (found : get? fields key = some value)
    (isRecord : value.fields? = some inner) (path : List Value) :
    (Value.record fields).fieldsAt? (key :: path) = (Value.record inner).fieldsAt? path := by
  unfold Value.fieldsAt?
  rw [Value.at?_cons rfl, found, Option.bind_some]
  cases path with
  | nil => exact isRecord
  | cons next path => rw [Value.at?_cons_of_record isRecord]

theorem hasOtherAt_cons {key value : Value} {inner : Fields} (found : get? fields key = some value)
    (isRecord : value.fields? = some inner) {path : List Value}
    (hasOther : (Value.record inner).HasOtherAt path) :
    (Value.record fields).HasOtherAt (key :: path) := by
  obtain ⟨other, isAt, isOther⟩ := hasOther
  refine ⟨other, ?_, isOther⟩
  rw [Value.at?_cons rfl, found, Option.bind_some]
  cases path with
  | nil =>
      cases isAt
      cases isOther
  | cons next path =>
      rw [Value.at?_cons_of_record isRecord]
      exact isAt

theorem Unbroken.inner {key firstValue secondValue thirdValue : Value}
    {firstInner secondInner thirdInner : Fields} (unbroken : Unbroken first second third)
    (isFirst : get? first key = some firstValue)
    (firstRecord : firstValue.fields? = some firstInner)
    (isSecond : get? second key = some secondValue)
    (secondRecord : secondValue.fields? = some secondInner)
    (isThird : get? third key = some thirdValue)
    (thirdRecord : thirdValue.fields? = some thirdInner) :
    Unbroken firstInner secondInner thirdInner := by
  intro path atFirst atThird atSecond
  rw [← fieldsAt?_cons isFirst firstRecord] at atFirst
  rw [← fieldsAt?_cons isThird thirdRecord] at atThird
  exact unbroken (key :: path) atFirst atThird (hasOtherAt_cons isSecond secondRecord atSecond)

/-- Where the value in the middle has something else, one of the outer two is no record. -/
theorem Unbroken.fresh {key secondValue thirdValue : Value} {thirdInner : Fields}
    (unbroken : Unbroken first second third) (isSecond : get? second key = some secondValue)
    (isOther : secondValue.fields? = none) (isThird : get? third key = some thirdValue)
    (thirdRecord : thirdValue.fields? = some thirdInner) :
    (get? first key).bind Value.fields? = none := by
  cases isFirst : get? first key with
  | none => rfl
  | some firstValue =>
      cases firstRecord : firstValue.fields? with
      | none => exact firstRecord
      | some firstInner =>
          refine absurd ?_ (unbroken [key] ?_ ?_)
          · exact ⟨secondValue, by rw [Value.at?_cons rfl, isSecond]; rfl, isOther⟩
          · rw [fieldsAt?_cons isFirst firstRecord]
            rfl
          · rw [fieldsAt?_cons isThird thirdRecord]
            rfl

section

variable {merge : Fields → Fields → Option Fields} {lower upper : Fields}

theorem keys_regrouped (isLower : Overlaid merge first second lower)
    (isLeft : Overlaid merge lower third left) (isUpper : Overlaid merge second third upper)
    (isRight : Overlaid merge first upper right) : left.map Prod.fst = right.map Prod.fst := by
  have absent : ∀ key, (get? lower key).isNone =
      ((get? first key).isNone && (get? second key).isNone) := isLower.isNone
  have leftKeys : left.map Prod.fst = mergedKeys lower third := isLeft.keys
  have lowerKeys : lower.map Prod.fst = mergedKeys first second := isLower.keys
  have rightKeys : right.map Prod.fst = mergedKeys first upper := isRight.keys
  have upperKeys : upper.map Prod.fst = mergedKeys second third := isUpper.keys
  rw [leftKeys, rightKeys, mergedKeys_eq, mergedKeys_eq, lowerKeys, upperKeys, mergedKeys_eq,
    mergedKeys_eq, List.filter_append, List.filter_filter, List.append_assoc]
  simp only [absent]

end

/-- Where the second and the third value are records, the first one decides which are merged. -/
theorem alike_of_records {depth : Nat} {below : Option Value}
    {secondValue thirdValue lowerValue leftValue upperValue rightValue : Value}
    {secondInner thirdInner : Fields} (secondRecord : secondValue.fields? = some secondInner)
    (thirdRecord : thirdValue.fields? = some thirdInner)
    (isLower : combine (merge depth) below secondValue = some lowerValue)
    (isLeft : combine (merge depth) (some lowerValue) thirdValue = some leftValue)
    (isUpper : combine (merge depth) (some secondValue) thirdValue = some upperValue)
    (isRight : combine (merge depth) below upperValue = some rightValue)
    (inner : ∀ firstInner, below.bind Value.fields? = some firstInner →
      Regroups depth firstInner secondInner thirdInner) :
    leftValue.Alike rightValue := by
  have isMiddle : (some secondValue).bind Value.fields? = some secondInner := secondRecord
  cases firstRecord : below.bind Value.fields? with
  | none =>
      rw [combine_of_fresh firstRecord] at isLower isRight
      cases isLower
      cases isRight
      rw [isUpper] at isLeft
      cases isLeft
      exact .refl _
  | some firstInner =>
      rw [combine_records isMiddle thirdRecord] at isUpper
      obtain ⟨upper, isUpperInner, rfl⟩ := Option.map_eq_some_iff.mp isUpper
      rw [combine_records firstRecord secondRecord] at isLower
      obtain ⟨lower, isLowerInner, rfl⟩ := Option.map_eq_some_iff.mp isLower
      rw [combine_records rfl thirdRecord] at isLeft
      obtain ⟨left, isLeftInner, rfl⟩ := Option.map_eq_some_iff.mp isLeft
      rw [combine_records firstRecord rfl] at isRight
      obtain ⟨right, isRightInner, rfl⟩ := Option.map_eq_some_iff.mp isRight
      exact inner firstInner firstRecord lower left upper right isLowerInner isLeftInner
        isUpperInner isRightInner

section

variable {depth : Nat} {lower upper : Fields} {key : Value}

theorem get?_regrouped_of_absent (isLower : Overlaid (merge depth) first second lower)
    (isLeft : Overlaid (merge depth) lower third left)
    (isUpper : Overlaid (merge depth) second third upper)
    (isRight : Overlaid (merge depth) first upper right) (isThird : get? third key = none) :
    get? left key = get? right key := by
  have sameLower := isLeft.kept key isThird
  have sameUpper := isUpper.kept key isThird
  cases isSecond : get? second key with
  | none =>
      rw [sameLower, isLower.kept key isSecond, isRight.kept key (sameUpper.trans isSecond)]
  | some secondValue =>
      rw [sameLower, isLower.lookup isSecond, isRight.lookup (sameUpper.trans isSecond)]

theorem get?_regrouped_of_other (isLeft : Overlaid (merge depth) lower third left)
    (isUpper : Overlaid (merge depth) second third upper)
    (isRight : Overlaid (merge depth) first upper right) {thirdValue : Value}
    (isThird : get? third key = some thirdValue) (isOther : thirdValue.fields? = none) :
    get? left key = get? right key := by
  have foundUpper : get? upper key = some thirdValue := by
    rw [isUpper.lookup isThird, combine_of_other isOther]
  rw [isLeft.lookup isThird, isRight.lookup foundUpper, combine_of_other isOther,
    combine_of_other isOther]

/-- The values that the two ways to merge come to under one key. -/
theorem rel_regrouped (isLower : Overlaid (merge depth) first second lower)
    (isLeft : Overlaid (merge depth) lower third left)
    (isUpper : Overlaid (merge depth) second third upper)
    (isRight : Overlaid (merge depth) first upper right) (unbroken : Unbroken first second third)
    (inner : ∀ firstValue secondValue thirdValue firstInner secondInner thirdInner,
      get? first key = some firstValue → firstValue.fields? = some firstInner →
      get? second key = some secondValue → secondValue.fields? = some secondInner →
      get? third key = some thirdValue → thirdValue.fields? = some thirdInner →
      Regroups depth firstInner secondInner thirdInner) :
    Option.Rel Alike (get? left key) (get? right key) := by
  cases isThird : get? third key with
  | none =>
      rw [get?_regrouped_of_absent isLower isLeft isUpper isRight isThird]
      exact Value.rel_refl _
  | some thirdValue =>
      cases thirdRecord : thirdValue.fields? with
      | none =>
          rw [get?_regrouped_of_other isLeft isUpper isRight isThird thirdRecord]
          exact Value.rel_refl _
      | some thirdInner =>
          obtain ⟨leftValue, isLeftValue, foundLeft⟩ := isLeft.combined key thirdValue isThird
          obtain ⟨upperValue, isUpperValue, foundUpper⟩ := isUpper.combined key thirdValue isThird
          obtain ⟨rightValue, isRightValue, foundRight⟩ := isRight.combined key upperValue foundUpper
          rw [foundLeft, foundRight, ← isLeftValue, ← isRightValue]
          cases isSecond : get? second key with
          | none =>
              rw [isSecond, combine_of_fresh rfl] at isUpperValue
              cases isUpperValue
              rw [isLower.kept key isSecond]
              exact Value.rel_refl _
          | some secondValue =>
              rw [isSecond] at isUpperValue
              obtain ⟨lowerValue, isLowerValue, foundLower⟩ :=
                isLower.combined key secondValue isSecond
              cases secondRecord : secondValue.fields? with
              | none =>
                  -- Only here the two ways could differ: the value in the middle is no record.
                  have firstFresh := unbroken.fresh isSecond secondRecord isThird thirdRecord
                  have secondFresh : (some secondValue).bind Value.fields? = none := secondRecord
                  rw [combine_of_fresh secondFresh] at isUpperValue
                  cases isUpperValue
                  rw [combine_of_other secondRecord] at isLowerValue
                  cases isLowerValue
                  rw [foundLower, combine_of_fresh secondFresh, combine_of_fresh firstFresh]
                  exact Value.rel_refl _
              | some secondInner =>
                  rw [foundLower] at isLeftValue
                  rw [foundLower, isLeftValue, isRightValue]
                  refine .some (alike_of_records secondRecord thirdRecord isLowerValue isLeftValue
                    isUpperValue isRightValue fun firstInner firstRecord => ?_)
                  obtain ⟨firstValue, isFirst, firstRecord⟩ :=
                    Option.bind_eq_some_iff.mp firstRecord
                  exact inner firstValue secondValue thirdValue firstInner secondInner thirdInner
                    isFirst firstRecord isSecond secondRecord isThird thirdRecord

end

theorem WellKeyed.regroups (wellSecond : WellKeyed second) (wellThird : WellKeyed third)
    (unbroken : Unbroken first second third) (depth : Nat) : Regroups depth first second third := by
  induction wellThird generalizing first second depth with
  | @intro third distinct self inners induction =>
      have wellThird : WellKeyed third := .intro distinct self inners
      intro lower left upper right isLower isLeft isUpper isRight
      cases depth with
      | zero => cases isLower
      | succ depth =>
          have wellUpper := wellSecond.merge wellThird isUpper
          replace isLower := overlaid_of_merge wellSecond.nested isLower
          replace isLeft := overlaid_of_merge wellThird.nested isLeft
          replace isUpper := overlaid_of_merge wellThird.nested isUpper
          replace isRight := overlaid_of_merge wellUpper.nested isRight
          refine Value.alike_of_lookups (keys_regrouped isLower isLeft isUpper isRight) fun key => ?_
          refine rel_regrouped isLower isLeft isUpper isRight unbroken ?_
          intro firstValue secondValue thirdValue firstInner secondInner thirdInner isFirst
            firstRecord isSecond secondRecord isThird thirdRecord
          have innerUnbroken := unbroken.inner isFirst firstRecord isSecond secondRecord isThird
            thirdRecord
          obtain ⟨field, member, rfl⟩ := mem_of_get? isThird
          exact induction field member thirdInner thirdRecord
            (wellSecond.inner isSecond secondRecord) innerUnbroken depth

/-! ## What merges end with -/

/-- The record that a merge ends with. -/
def Merges (left right merged : Fields) : Prop :=
  ∃ bound, ∀ depth ≥ bound, merge depth left right = some merged

theorem merges_of_merge {depth : Nat} (performed : merge depth left right = some merged) :
    Merges left right merged :=
  ⟨depth, fun _ atLeast => keeps_merge_of_le atLeast left right merged performed⟩

theorem Nested.exists_merges (nested : Nested right) (left : Fields) :
    ∃ merged, Merges left right merged := by
  obtain ⟨bound, enough⟩ := nested.suffices
  obtain ⟨merged, performed⟩ := enough left
  exact ⟨merged, merges_of_merge performed⟩

theorem WellKeyed.merges (wellLeft : WellKeyed left) (wellRight : WellKeyed right)
    (merges : Merges left right merged) : WellKeyed merged := by
  obtain ⟨bound, performed⟩ := merges
  exact wellLeft.merge wellRight (performed bound (le_refl bound))

theorem alike_of_merges_twice {once twice : Fields} (wellRight : WellKeyed right)
    (first : Merges left right once) (second : Merges once right twice) :
    (Value.record twice).Alike (.record once) := by
  obtain ⟨bound, performed⟩ := first
  obtain ⟨other, performedAgain⟩ := second
  exact wellRight.absorbed (max bound other) left once twice
    (performed _ (Nat.le_max_left _ _)) (performedAgain _ (Nat.le_max_right _ _))

theorem alike_of_regrouped {lower upper : Fields} (wellSecond : WellKeyed second)
    (wellThird : WellKeyed third) (unbroken : Unbroken first second third)
    (isLower : Merges first second lower) (isLeft : Merges lower third left)
    (isUpper : Merges second third upper) (isRight : Merges first upper right) :
    (Value.record left).Alike (.record right) := by
  obtain ⟨lowerBound, isLower⟩ := isLower
  obtain ⟨leftBound, isLeft⟩ := isLeft
  obtain ⟨upperBound, isUpper⟩ := isUpper
  obtain ⟨rightBound, isRight⟩ := isRight
  let depth := lowerBound + leftBound + upperBound + rightBound
  exact wellSecond.regroups wellThird unbroken depth lower left upper right
    (isLower depth (by omega)) (isLeft depth (by omega)) (isUpper depth (by omega))
    (isRight depth (by omega))

/-- A merged record has tied records only from those that are merged. -/
theorem Untied.merges (untiedLeft : Untied left) (untiedRight : Untied right)
    (nested : Nested right) (merges : Merges left right merged) : Untied merged := by
  obtain ⟨bound, performed⟩ := merges
  intro path value inner isAt isRecord
  have laid := laid_of_merge nested (performed bound (le_refl bound)) path
  rw [isAt] at laid
  generalize isBelow : (Value.record left).at? path = below at laid
  generalize isAbove : (Value.record right).at? path = above at laid
  cases laid with
  | kept _ => exact untiedLeft path value inner isBelow isRecord
  | other isOther =>
      rw [isRecord] at isOther
      cases isOther
  | fresh _ _ => exact untiedRight path value inner isAbove isRecord
  | merged _ _ _ =>
      cases isRecord
      rfl

/-- The laws of merging, up to equality at every level with the keys in the same order, which is
equality where no record is tied.

The empty record changes nothing on either side.  A record merged with itself is itself, and a record
that is laid over another one a second time changes nothing.  Three records can be merged in both
ways, and if at no path the first and the third have records while the second has something else, the
two results are the same. -/
theorem merge_laws (wellFirst : WellKeyed first) (wellSecond : WellKeyed second)
    (wellThird : WellKeyed third) :
    Merges [] first first ∧ Merges first [] first ∧
    (∃ twice, Merges first first twice ∧ (Value.record twice).Alike (.record first) ∧
      (Untied first → twice = first)) ∧
    (∃ once twice, Merges first second once ∧ Merges once second twice ∧
      (Value.record twice).Alike (.record once) ∧
      (Untied first → Untied second → twice = once)) ∧
    (∃ lower left upper right, Merges first second lower ∧ Merges lower third left ∧
      Merges second third upper ∧ Merges first upper right ∧
      (Unbroken first second third → (Value.record left).Alike (.record right) ∧
        (Untied first → Untied second → Untied third → left = right))) := by
  have emptyLeft : Merges [] first first := merges_of_merge (merge_empty_left wellFirst.distinct 0)
  refine ⟨emptyLeft, merges_of_merge (merge_empty_right 0 first), ?_, ?_, ?_⟩
  · obtain ⟨twice, merges⟩ := wellFirst.nested.exists_merges first
    have alike := alike_of_merges_twice wellFirst emptyLeft merges
    refine ⟨twice, merges, alike, fun untied => ?_⟩
    exact eq_of_alike (wellFirst.merges wellFirst merges) wellFirst
      (untied.merges untied wellFirst.nested merges) untied alike
  · obtain ⟨once, merges⟩ := wellSecond.nested.exists_merges first
    obtain ⟨twice, again⟩ := wellSecond.nested.exists_merges once
    have wellOnce := wellFirst.merges wellSecond merges
    have alike := alike_of_merges_twice wellSecond merges again
    refine ⟨once, twice, merges, again, alike, fun untiedFirst untiedSecond => ?_⟩
    have untiedOnce := untiedFirst.merges untiedSecond wellSecond.nested merges
    exact eq_of_alike (wellOnce.merges wellSecond again) wellOnce
      (untiedOnce.merges untiedSecond wellSecond.nested again) untiedOnce alike
  · obtain ⟨lower, isLower⟩ := wellSecond.nested.exists_merges first
    obtain ⟨left, isLeft⟩ := wellThird.nested.exists_merges lower
    obtain ⟨upper, isUpper⟩ := wellThird.nested.exists_merges second
    have wellUpper := wellSecond.merges wellThird isUpper
    obtain ⟨right, isRight⟩ := wellUpper.nested.exists_merges first
    refine ⟨lower, left, upper, right, isLower, isLeft, isUpper, isRight, fun unbroken => ?_⟩
    have alike := alike_of_regrouped wellSecond wellThird unbroken isLower isLeft isUpper isRight
    refine ⟨alike, fun untiedFirst untiedSecond untiedThird => ?_⟩
    have untiedLower := untiedFirst.merges untiedSecond wellSecond.nested isLower
    have untiedUpper := untiedSecond.merges untiedThird wellThird.nested isUpper
    exact eq_of_alike ((wellFirst.merges wellSecond isLower).merges wellThird isLeft)
      (wellFirst.merges wellUpper isRight) (untiedLower.merges untiedThird wellThird.nested isLeft)
      (untiedFirst.merges untiedUpper wellUpper.nested isRight) alike

/-- Records without records in them break nothing. -/
theorem unbroken_of_flat (flat : ∀ field ∈ first, field.2.fields? = none) (second third : Fields) :
    Unbroken first second third := by
  intro path atFirst _ atSecond
  cases path with
  | nil =>
      obtain ⟨other, isAt, isOther⟩ := atSecond
      cases isAt
      cases isOther
  | cons key path =>
      unfold Value.fieldsAt? at atFirst
      rw [Value.at?_cons rfl] at atFirst
      cases found : get? first key with
      | none =>
          rw [found] at atFirst
          cases atFirst
      | some value =>
          obtain ⟨field, member, rfl⟩ := mem_of_get? found
          rw [found, Option.bind_some] at atFirst
          cases path with
          | nil =>
              rw [Value.at?, Option.bind_some, flat field member] at atFirst
              cases atFirst
          | cons next path =>
              rw [Value.at?_cons_of_other (flat field member)] at atFirst
              cases atFirst

/-- A record is not tied if no record in it is. -/
theorem untied_of_fields (untied : ∀ field ∈ fields, ∀ inner, field.2.fields? = some inner →
    field.2 = .record inner ∧ Untied inner) : Untied fields := by
  intro path value inner isAt isRecord
  cases path with
  | nil =>
      cases isAt
      cases isRecord
      rfl
  | cons key path =>
      rw [Value.at?_cons rfl] at isAt
      obtain ⟨member, found, isInside⟩ := Option.bind_eq_some_iff.mp isAt
      obtain ⟨field, isField, rfl⟩ := mem_of_get? found
      cases isInner : field.2.fields? with
      | some others =>
          obtain ⟨isPlain, untiedInside⟩ := untied field isField others isInner
          rw [isPlain] at isInside
          exact untiedInside path value inner isInside isRecord
      | none =>
          cases path with
          | nil =>
              cases isInside
              rw [isRecord] at isInner
              cases isInner
          | cons next path =>
              rw [Value.at?_cons_of_other isInner] at isInside
              cases isInside

theorem wellKeyed_single {key value : Value} (self : sameKey key key = true)
    (inside : ∀ inner, value.fields? = some inner → WellKeyed inner) :
    WellKeyed [(key, value)] := by
  refine .intro (List.pairwise_singleton _ _) ?_ ?_
  · intro field member
    cases List.mem_singleton.mp member
    exact self
  · intro field member inner isRecord
    cases List.mem_singleton.mp member
    exact inside inner isRecord

theorem wellKeyed_insideOther : WellKeyed insideOther := by
  refine wellKeyed_single rfl fun inner isRecord => ?_
  cases isRecord
  exact wellKeyed_single rfl nofun

theorem merge_laws_insideOther :
    ∃ lower left upper right,
      Merges [(.text "a", .int 1)] [(.text "a", .int 2)] lower ∧ Merges lower insideOther left ∧
      Merges [(.text "a", .int 2)] insideOther upper ∧
      Merges [(.text "a", .int 1)] upper right ∧ left = right := by
  have flat (number : Int) : ∀ field ∈ ([(.text "a", .int number)] : Fields),
      field.2.fields? = none := List.forall_mem_singleton.mpr rfl
  have wellKeyed (number : Int) : WellKeyed [(.text "a", .int number)] := wellKeyed_single rfl nofun
  have untied (number : Int) : Untied [(.text "a", .int number)] :=
    untied_of_fields fun field member inner isRecord => by
      rw [flat number field member] at isRecord
      cases isRecord
  have untiedInside : Untied insideOther := by
    refine untied_of_fields fun field member inner isRecord => ?_
    cases List.mem_singleton.mp member
    cases isRecord
    refine ⟨rfl, untied_of_fields fun field member inner isRecord => ?_⟩
    cases List.mem_singleton.mp member
    cases isRecord
  obtain ⟨_, _, _, _, lower, left, upper, right, isLower, isLeft, isUpper, isRight, same⟩ :=
    merge_laws (wellKeyed 1) (wellKeyed 2) wellKeyed_insideOther
  obtain ⟨_, equal⟩ := same (unbroken_of_flat (flat 1) _ _)
  exact ⟨lower, left, upper, right, isLower, isLeft, isUpper, isRight,
    equal (untied 1) (untied 2) untiedInside⟩

/-- A number between two records hides the first of them only if it is merged with the first. -/
example :
    ((merge 2 insideOther [(.text "a", .int 0)]).bind fun lower =>
      merge 2 lower [(.text "a", .record [(.text "c", .int 2)])]) =
        some [(.text "a", .record [(.text "c", .int 2)])] ∧
    ((merge 2 [(.text "a", .int 0)] [(.text "a", .record [(.text "c", .int 2)])]).bind fun upper =>
      merge 2 insideOther upper) =
        some [(.text "a", .record [(.text "b", .int 1), (.text "c", .int 2)])] :=
  ⟨rfl, rfl⟩

end Fields

end ConfigGraph
