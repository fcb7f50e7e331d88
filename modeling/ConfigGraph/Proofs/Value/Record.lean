import ConfigGraph.Value.Merge
import ConfigGraph.Proofs.Value.Key

/-!
# Fields of records

What is found under a key of a record, and what becomes of it and of the order of keys when a field
is put into the record.
-/

namespace ConfigGraph.Fields

open Value (sameKey sameKey_symm sameKey_trans)

/-! ## Looking up -/

theorem get?_cons (field : Value × Value) (fields : Fields) (key : Value) :
    get? (field :: fields) key =
      if sameKey key field.1 then some field.2 else get? fields key := by
  unfold get? Value.lookupBy
  rw [List.find?_cons]
  cases sameKey key field.1 <;> rfl

theorem sameKey_congr {key other : Value} (same : sameKey key other = true) (third : Value) :
    sameKey key third = sameKey other third := by
  rw [Bool.eq_iff_iff]
  constructor
  · exact sameKey_trans (sameKey_symm same)
  · exact sameKey_trans same

theorem sameKey_comm (key other : Value) : sameKey key other = sameKey other key := by
  rw [Bool.eq_iff_iff]
  exact ⟨sameKey_symm, sameKey_symm⟩

theorem get?_congr {key other : Value} (same : sameKey key other = true) (fields : Fields) :
    get? fields key = get? fields other := by
  unfold get? Value.lookupBy
  simp only [sameKey_congr same]

theorem mem_of_get? {fields : Fields} {key value : Value} (found : get? fields key = some value) :
    ∃ field ∈ fields, field.2 = value := by
  unfold get? Value.lookupBy at found
  obtain ⟨field, isFound, rfl⟩ := Option.map_eq_some_iff.mp found
  exact ⟨field, List.mem_of_find?_eq_some isFound, rfl⟩

theorem get?_eq_none_iff {fields : Fields} {key : Value} :
    get? fields key = none ↔ ∀ field ∈ fields, sameKey key field.1 = false := by
  unfold get? Value.lookupBy
  simp

/-! ## Putting -/

theorem get?_put_same {key wanted : Value} (same : sameKey wanted key = true) (value : Value)
    (fields : Fields) : get? (put key value fields) wanted = some value := by
  induction fields with
  | nil =>
      rw [put, get?_cons, if_pos same]
  | cons field fields induction =>
      unfold put
      cases isHere : sameKey key field.1 with
      | true => rw [if_pos rfl, get?_cons, if_pos (sameKey_trans same isHere)]
      | false =>
          have elsewhere : ¬sameKey wanted field.1 = true := by
            rw [sameKey_congr same, isHere]
            exact Bool.false_ne_true
          rw [if_neg Bool.false_ne_true, get?_cons, if_neg elsewhere]
          exact induction

theorem get?_put_other {key wanted : Value} (differs : sameKey wanted key = false) (value : Value)
    (fields : Fields) : get? (put key value fields) wanted = get? fields wanted := by
  induction fields with
  | nil =>
      rw [put, get?_cons, differs]
      rfl
  | cons field fields induction =>
      unfold put
      cases isHere : sameKey key field.1 with
      | true =>
          have elsewhere : ¬sameKey wanted field.1 = true := by
            intro same
            rw [sameKey_trans same (sameKey_symm isHere)] at differs
            cases differs
          rw [if_pos rfl, get?_cons, get?_cons, if_neg elsewhere, if_neg elsewhere]
      | false => rw [if_neg Bool.false_ne_true, get?_cons, get?_cons, induction]

theorem keys_put (key value : Value) (fields : Fields) :
    (put key value fields).map Prod.fst =
      if (get? fields key).isSome then fields.map Prod.fst else fields.map Prod.fst ++ [key] := by
  induction fields with
  | nil => rfl
  | cons field fields induction =>
      unfold put
      rw [get?_cons]
      cases sameKey key field.1 with
      | true => rfl
      | false =>
          rw [if_neg Bool.false_ne_true, if_neg Bool.false_ne_true, List.map_cons, induction]
          split_ifs <;> rfl

/-- A record with a field put into it has no other keys and values than before and those of the
field. -/
theorem mem_put {α : Type} {key : Value} {value : α} {fields : List (Value × α)} {field : Value × α}
    (member : field ∈ put key value fields) :
    (field.1 = key ∨ ∃ other ∈ fields, other.1 = field.1) ∧
      (field.2 = value ∨ ∃ other ∈ fields, other.2 = field.2) := by
  induction fields with
  | nil =>
      cases List.mem_singleton.mp member
      exact ⟨.inl rfl, .inl rfl⟩
  | cons head fields induction =>
      unfold put at member
      split at member
      · rcases List.mem_cons.mp member with rfl | isOld
        · exact ⟨.inr ⟨head, List.mem_cons_self, rfl⟩, .inl rfl⟩
        · exact ⟨.inr ⟨field, List.mem_cons_of_mem _ isOld, rfl⟩,
            .inr ⟨field, List.mem_cons_of_mem _ isOld, rfl⟩⟩
      · rcases List.mem_cons.mp member with rfl | isOld
        · exact ⟨.inr ⟨field, List.mem_cons_self, rfl⟩, .inr ⟨field, List.mem_cons_self, rfl⟩⟩
        · obtain ⟨isKey, isValue⟩ := induction isOld
          refine ⟨isKey.imp id ?_, isValue.imp id ?_⟩
          · rintro ⟨other, isOther, same⟩
            exact ⟨other, List.mem_cons_of_mem _ isOther, same⟩
          · rintro ⟨other, isOther, same⟩
            exact ⟨other, List.mem_cons_of_mem _ isOther, same⟩

/-- No key comes twice. -/
def Distinct (fields : Fields) : Prop :=
  fields.Pairwise fun field other => sameKey field.1 other.1 = false

/-! ## Laying one record over another -/

/-- What a value becomes when it is laid over the one that is there. -/
def combine (merge : Fields → Fields → Option Fields) (below : Option Value) (above : Value) :
    Option Value :=
  match below.bind Value.fields?, above.fields? with
  | some lower, some upper => (merge lower upper).map .record
  | _, _ => some above

variable {merge : Fields → Fields → Option Fields} {left right merged : Fields}

theorem overlay_eq (merge : Fields → Fields → Option Fields) (left : Fields)
    (field : Value × Value) :
    overlay merge left field =
      (combine merge (get? left field.1) field.2).map fun value => put field.1 value left := by
  unfold overlay combine
  cases (get? left field.1).bind Value.fields? with
  | none => rfl
  | some lower =>
      cases field.2.fields? with
      | none => rfl
      | some upper =>
          dsimp only
          rw [Option.map_map]
          rfl

/-- What a record laid over another one comes to: the values under its keys, and the keys. -/
structure Overlaid (merge : Fields → Fields → Option Fields) (left right merged : Fields) :
    Prop where
  kept : ∀ key, get? right key = none → get? merged key = get? left key
  combined : ∀ key above, get? right key = some above →
    ∃ value, combine merge (get? left key) above = some value ∧ get? merged key = some value
  keys : merged.map Prod.fst = left.map Prod.fst ++
    (right.filter fun field => (get? left field.1).isNone).map Prod.fst

theorem overlaid_of_foldlM (distinct : Distinct right)
    (performed : right.foldlM (overlay merge) left = some merged) :
    Overlaid merge left right merged := by
  -- The first field changes nothing under the keys of the others.
  induction right generalizing left with
  | nil =>
      cases performed
      exact ⟨fun _ _ => rfl, nofun, (List.append_nil _).symm⟩
  | cons field right induction =>
      obtain ⟨differs, others⟩ := List.pairwise_cons.mp distinct
      rw [List.foldlM_cons, overlay_eq] at performed
      obtain ⟨next, isNext, rest⟩ := Option.bind_eq_some_iff.mp performed
      obtain ⟨value, isValue, rfl⟩ := Option.map_eq_some_iff.mp isNext
      obtain ⟨kept, combined, keys⟩ := induction others rest
      have untouched : ∀ other ∈ right,
          get? (put field.1 value left) other.1 = get? left other.1 := by
        intro other member
        apply get?_put_other
        rw [sameKey_comm]
        exact differs other member
      constructor
      · intro key absent
        rw [get?_cons] at absent
        cases same : sameKey key field.1 with
        | true =>
            rw [same] at absent
            cases absent
        | false =>
            rw [same] at absent
            rw [kept key absent, get?_put_other same]
      · intro key above present
        rw [get?_cons] at present
        cases same : sameKey key field.1 with
        | true =>
            have notBehind : get? right key = none := by
              rw [get?_congr same, get?_eq_none_iff]
              exact differs
            rw [same] at present
            cases present
            refine ⟨value, ?_, ?_⟩
            · rw [get?_congr same, isValue]
            · rw [kept key notBehind, get?_put_same same]
        | false =>
            rw [same] at present
            rw [← get?_put_other same value left]
            exact combined key above present
      · have sameNew : (right.filter fun other =>
            (get? (put field.1 value left) other.1).isNone) =
              right.filter fun other => (get? left other.1).isNone :=
          List.filter_congr fun other member => by rw [untouched other member]
        rw [keys, sameNew, keys_put, List.filter_cons]
        cases get? left field.1 <;> simp

end ConfigGraph.Fields
