import ConfigGraph.Proofs.Value.Depth
import ConfigGraph.Proofs.Value.Record

/-!
# Records laid over records

What is at a path of keys in a merged record is told by what is there in the two records, and by
whether the right one has anything else than a record on the way.
-/

namespace ConfigGraph

/-! ## Paths of keys -/

namespace Value

/-- What is at a path of keys in a value. -/
def at? (value : Value) : List Value → Option Value
  | [] => some value
  | key :: path => (value.fields?.bind fun fields => Fields.get? fields key).bind fun inner =>
      inner.at? path

/-- The fields of the record at a path of keys, if there is one. -/
def fieldsAt? (value : Value) (path : List Value) : Option Fields :=
  (value.at? path).bind fields?

/-- Something else than a record is at a path of keys. -/
def HasOtherAt (value : Value) (path : List Value) : Prop :=
  ∃ other, value.at? path = some other ∧ other.fields? = none

/-- Something else than a record is on the way along a path of keys. -/
def Blocked (value : Value) (path : List Value) : Prop :=
  ∃ start, start <+: path ∧ start ≠ path ∧ value.HasOtherAt start

section

variable {value : Value} {fields : Fields}

theorem at?_cons (isRecord : value.fields? = some fields) (key : Value) (path : List Value) :
    value.at? (key :: path) = (Fields.get? fields key).bind fun inner => inner.at? path := by
  rw [at?, isRecord]
  rfl

theorem at?_cons_of_other (isOther : value.fields? = none) (key : Value) (path : List Value) :
    value.at? (key :: path) = none := by
  rw [at?, isOther]
  rfl

theorem blocked_cons (isRecord : value.fields? = some fields) (key : Value) (path : List Value) :
    value.Blocked (key :: path) ↔
      ∃ inner, Fields.get? fields key = some inner ∧ inner.Blocked path := by
  constructor
  · rintro ⟨start, isStart, differs, other, isAt, isOther⟩
    cases start with
    | nil =>
        cases isAt
        rw [isRecord] at isOther
        cases isOther
    | cons first start =>
        obtain ⟨rfl, isInner⟩ := List.cons_prefix_cons.mp isStart
        rw [at?_cons isRecord] at isAt
        obtain ⟨inner, found, isAtInner⟩ := Option.bind_eq_some_iff.mp isAt
        exact ⟨inner, found, start, isInner, fun same => differs (by rw [same]), other, isAtInner,
          isOther⟩
  · rintro ⟨inner, found, start, isStart, differs, other, isAt, isOther⟩
    refine ⟨key :: start, List.cons_prefix_cons.mpr ⟨rfl, isStart⟩, ?_, other, ?_, isOther⟩
    · exact fun same => differs (List.cons.inj same).2
    · rw [at?_cons isRecord, found]
      exact isAt

theorem at?_cons_of_record (isRecord : value.fields? = some fields) (key : Value)
    (path : List Value) : value.at? (key :: path) = (record fields).at? (key :: path) :=
  at?_cons isRecord key path

theorem blocked_cons_of_record (isRecord : value.fields? = some fields) (key : Value)
    (path : List Value) : value.Blocked (key :: path) ↔ (record fields).Blocked (key :: path) :=
  (blocked_cons isRecord key path).trans (blocked_cons rfl key path).symm

theorem blocked_cons_of_other (isOther : value.fields? = none) (key : Value) (path : List Value) :
    value.Blocked (key :: path) :=
  ⟨[], List.nil_prefix, nofun, value, rfl, isOther⟩

end

end Value

namespace Fields

open Value (at? fieldsAt? Blocked)

/-! ## One path -/

/-- The keys of a record in order, and behind them those of another one that it lacks. -/
def mergedKeys (lower upper : Fields) : List Value :=
  lower.map Prod.fst ++ (upper.filter fun field => (get? lower field.1).isNone).map Prod.fst

/-- What is at a path in a merged record, next to what is there below and above. -/
inductive Laid (blocked : Prop) : Option Value → Option Value → Option Value → Prop where
  /-- Nothing is laid over what is below. -/
  | kept {below : Option Value} :
      ¬blocked → Laid blocked below none below
  /-- Something above hides what is below. -/
  | hidden {below : Option Value} :
      blocked → Laid blocked below none none
  | other {below : Option Value} {above : Value} :
      above.fields? = none → Laid blocked below (some above) (some above)
  /-- No record is below the one above. -/
  | fresh {below : Option Value} {above : Value} {upper : Fields} :
      above.fields? = some upper → below.bind Value.fields? = none →
      Laid blocked below (some above) (some above)
  | merged {below : Option Value} {above : Value} {lower upper inner : Fields} :
      below.bind Value.fields? = some lower → above.fields? = some upper →
      inner.map Prod.fst = mergedKeys lower upper →
      Laid blocked below (some above) (some (.record inner))

/-- Where nothing is below, or no record, the path goes on above alone. -/
theorem laid_of_same {blocked : Prop} {below above : Option Value}
    (noRecord : below.bind Value.fields? = none) (nothing : above = none → ¬blocked → below = none) :
    Laid blocked below above above := by
  cases above with
  | none =>
      by_cases isBlocked : blocked
      · exact .hidden isBlocked
      · rw [nothing rfl isBlocked]
        exact .kept isBlocked
  | some above =>
      cases isRecord : above.fields? with
      | none => exact .other isRecord
      | some upper => exact .fresh isRecord noRecord

/-- Something else than a record hides all that is below it. -/
theorem laid_of_other {above : Value} (isOther : above.fields? = none) (below : Option Value)
    (path : List Value) :
    Laid (above.Blocked path) below (above.at? path) (above.at? path) := by
  cases path with
  | nil => exact .other isOther
  | cons key path =>
      rw [Value.at?_cons_of_other isOther]
      exact .hidden (Value.blocked_cons_of_other isOther key path)

/-- A record that is laid over no record. -/
theorem laid_of_fresh {below : Option Value} (noRecord : below.bind Value.fields? = none)
    (above : Value) (path : List Value) :
    Laid (above.Blocked path) (below.bind fun inner => inner.at? path) (above.at? path)
      (above.at? path) := by
  have nothing (key : Value) (path : List Value) :
      (below.bind fun inner => inner.at? (key :: path)) = none := by
    cases below with
    | none => rfl
    | some inner => exact Value.at?_cons_of_other noRecord key path
  cases path with
  | nil =>
      refine laid_of_same ?_ nofun
      cases below with
      | none => rfl
      | some inner => exact noRecord
  | cons key path =>
      rw [nothing]
      exact laid_of_same rfl fun _ _ => rfl

/-! ## Nested records -/

/-- Records whose nesting ends, and in which no key comes twice. -/
inductive Nested : Fields → Prop where
  | intro {fields : Fields} :
      Distinct fields →
      (∀ field ∈ fields, ∀ inner, field.2.fields? = some inner → Nested inner) →
      Nested fields

theorem Nested.distinct {fields : Fields} (nested : Nested fields) : Distinct fields := by
  cases nested with
  | intro distinct _ => exact distinct

theorem Nested.inner {fields inner : Fields} {key value : Value} (nested : Nested fields)
    (found : get? fields key = some value) (isRecord : value.fields? = some inner) :
    Nested inner := by
  cases nested with
  | intro _ inners =>
      obtain ⟨field, member, rfl⟩ := mem_of_get? found
      exact inners field member inner isRecord

variable {left right result : Fields}

theorem overlaid_of_merge (nested : Nested right) {depth : Nat}
    (performed : merge (depth + 1) left right = some result) :
    Overlaid (merge depth) left right result :=
  overlaid_of_foldlM nested.distinct performed

theorem keys_of_merge (nested : Nested right) {depth : Nat}
    (performed : merge depth left right = some result) :
    result.map Prod.fst = mergedKeys left right := by
  cases depth with
  | zero => cases performed
  | succ depth => exact (overlaid_of_merge nested performed).keys

/-- What is at each path of a merged record. -/
theorem laid_of_merge (nested : Nested right) {depth : Nat}
    (performed : merge depth left right = some result) (path : List Value) :
    Laid ((Value.record right).Blocked path) ((Value.record left).at? path)
      ((Value.record right).at? path) ((Value.record result).at? path) := by
  induction path generalizing left right result depth with
  | nil => exact .merged rfl rfl (keys_of_merge nested performed)
  | cons key path induction =>
      cases depth with
      | zero => cases performed
      | succ depth =>
          obtain ⟨kept, combined, _⟩ := overlaid_of_merge nested performed
          rw [Value.at?_cons rfl, Value.at?_cons rfl, Value.at?_cons rfl, Value.blocked_cons rfl]
          cases isAbove : get? right key with
          | none =>
              rw [kept key isAbove]
              exact .kept (by rintro ⟨_, ⟨⟩, _⟩)
          | some above =>
              obtain ⟨value, isValue, isMerged⟩ := combined key above isAbove
              rw [isMerged]
              simp only [Option.some.injEq, exists_eq_left', Option.bind_some]
              unfold combine at isValue
              split at isValue
              case h_1 lower upper isLower isUpper =>
                obtain ⟨inner, isInner, rfl⟩ := Option.map_eq_some_iff.mp isValue
                obtain ⟨below, isBelow, isLower⟩ := Option.bind_eq_some_iff.mp isLower
                have nestedUpper := nested.inner isAbove isUpper
                rw [isBelow]
                cases path with
                | nil => exact .merged isLower isUpper (keys_of_merge nestedUpper isInner)
                | cons next path =>
                    rw [Option.bind_some, Value.at?_cons_of_record isLower,
                      Value.at?_cons_of_record isUpper, Value.blocked_cons_of_record isUpper]
                    exact induction nestedUpper isInner
              case h_2 notRecords =>
                cases isValue
                cases isUpper : above.fields? with
                | none => exact laid_of_other isUpper _ path
                | some upper =>
                    refine laid_of_fresh ?_ above path
                    cases isLower : (get? left key).bind Value.fields? with
                    | none => rfl
                    | some lower => exact absurd isUpper (notRecords lower upper isLower)

/-! ## Depth -/

theorem keeps_merge_of_le {depth larger : Nat} (atLeast : depth ≤ larger) (left right : Fields) :
    Keeps (merge depth left right) (merge larger left right) := by
  induction larger, atLeast using Nat.le_induction with
  | base => exact .refl _
  | succ larger _ induction =>
      exact fun merged performed => keeps_merge_succ larger left right merged
        (induction merged performed)

/-- A depth that suffices to lay a record over any other one. -/
def Suffices (depth : Nat) (right : Fields) : Prop :=
  ∀ left, ∃ merged, merge depth left right = some merged

theorem Suffices.mono {depth larger : Nat} (enough : Suffices depth right)
    (atLeast : depth ≤ larger) : Suffices larger right := by
  intro left
  obtain ⟨merged, performed⟩ := enough left
  exact ⟨merged, keeps_merge_of_le atLeast left right merged performed⟩

/-- One depth for the records in all fields. -/
theorem suffices_inner {fields : Fields}
    (each : ∀ field ∈ fields, ∀ inner, field.2.fields? = some inner → ∃ depth, Suffices depth inner) :
    ∃ depth, ∀ field ∈ fields, ∀ inner, field.2.fields? = some inner → Suffices depth inner := by
  refine exists_depth (fun atLeast enough inner isRecord => (enough inner isRecord).mono atLeast)
    fun field member => ?_
  cases isRecord : field.2.fields? with
  | none => exact ⟨0, nofun⟩
  | some inner =>
      obtain ⟨depth, enough⟩ := each field member inner isRecord
      exact ⟨depth, fun _ same => by cases same; exact enough⟩

/-- A depth that suffices for the records in a record suffices, with one more, for the record. -/
theorem suffices_succ {depth : Nat} {fields : Fields}
    (enough : ∀ field ∈ fields, ∀ inner, field.2.fields? = some inner → Suffices depth inner) :
    Suffices (depth + 1) fields := by
  unfold Suffices merge
  induction fields with
  | nil => exact fun left => ⟨left, rfl⟩
  | cons field fields induction =>
      intro left
      obtain ⟨first, others⟩ := List.forall_mem_cons.mp enough
      have step : ∃ middle, overlay (merge depth) left field = some middle := by
        unfold overlay
        split
        case h_1 lower upper _ isUpper =>
          obtain ⟨merged, performed⟩ := first upper isUpper lower
          exact ⟨_, by rw [performed]; rfl⟩
        case h_2 => exact ⟨_, rfl⟩
      obtain ⟨middle, isMiddle⟩ := step
      obtain ⟨merged, performed⟩ := induction others middle
      exact ⟨merged, by rw [List.foldlM_cons, isMiddle]; exact performed⟩

theorem Nested.suffices (nested : Nested right) : ∃ depth, Suffices depth right := by
  induction nested with
  | intro _ _ inners =>
      obtain ⟨depth, enough⟩ := suffices_inner inners
      exact ⟨depth + 1, suffices_succ enough⟩

/-! ## What a merged record holds -/

section

variable {blocked : Prop} {below above merged : Option Value}

theorem Laid.other_iff (laid : Laid blocked below above merged) {value : Value}
    (isOther : value.fields? = none) :
    merged = some value ↔
      above = some value ∨ below = some value ∧ above = none ∧ ¬blocked := by
  cases laid with
  | kept free => simp [free]
  | hidden isBlocked => simp [isBlocked]
  | other _ => simp
  | fresh _ _ => simp
  | merged _ isUpper _ =>
      refine iff_of_false ?_ ?_
      · rintro ⟨⟩
        cases isOther
      · rintro (⟨⟨⟩⟩ | ⟨_, ⟨⟩, _⟩)
        rw [isUpper] at isOther
        cases isOther

theorem Laid.isRecord_iff (laid : Laid blocked below above merged) :
    (merged.bind Value.fields?).isSome = true ↔
      (above.bind Value.fields?).isSome = true ∨
        (below.bind Value.fields?).isSome = true ∧
          ¬(∃ other, above = some other ∧ other.fields? = none) ∧ ¬blocked := by
  cases laid with
  | kept free => simp [free]
  | hidden isBlocked => simp [isBlocked]
  | other isOther => simp [isOther]
  | fresh isUpper noRecord => simp [isUpper]
  | merged _ isUpper _ => exact iff_of_true rfl (.inl (by rw [Option.bind_some, isUpper]; rfl))

theorem Laid.keys_eq (laid : Laid blocked below above merged) {lower upper : Fields}
    (isLower : below.bind Value.fields? = some lower)
    (isUpper : above.bind Value.fields? = some upper) :
    (merged.bind Value.fields?).map (List.map Prod.fst) = some (mergedKeys lower upper) := by
  cases laid with
  | kept _ => cases isUpper
  | hidden _ => cases isUpper
  | other isOther =>
      rw [Option.bind_some, isOther] at isUpper
      cases isUpper
  | fresh _ noRecord =>
      rw [noRecord] at isLower
      cases isLower
  | merged isBelow isAbove keys =>
      rw [Option.bind_some, isAbove] at isUpper
      rw [isBelow] at isLower
      cases isUpper
      cases isLower
      exact congrArg some keys

theorem Laid.eq_above (laid : Laid blocked below above merged)
    (isRecord : (merged.bind Value.fields?).isSome = true)
    (noRecord : below.bind Value.fields? = none) : merged = above := by
  cases laid with
  | kept _ =>
      rw [noRecord] at isRecord
      cases isRecord
  | hidden _ => rfl
  | other _ => rfl
  | fresh _ _ => rfl
  | merged isLower _ _ =>
      rw [isLower] at noRecord
      cases noRecord

theorem Laid.eq_below (laid : Laid blocked below above merged)
    (isRecord : (merged.bind Value.fields?).isSome = true)
    (noRecord : above.bind Value.fields? = none) : merged = below := by
  cases laid with
  | kept _ => rfl
  | hidden _ => cases isRecord
  | other _ =>
      rw [noRecord] at isRecord
      cases isRecord
  | fresh _ _ =>
      rw [noRecord] at isRecord
      cases isRecord
  | merged _ isUpper _ =>
      rw [Option.bind_some, isUpper] at noRecord
      cases noRecord

end

/-- What is at the paths of a merged record.

The right record is finitely nested, with distinct keys, and so the merge ends.  At a path is
something else than a record if it is there on the right, or on the left while there is nothing on
the right, and no such thing on the way.  A record is there if one is there on the right, or on the
left while there is nothing else on the right, and no such thing on the way.  Two records at one path
become one with the keys of the left one and then the new keys of the right one; one alone stays as
it is. -/
theorem merge_at_paths (left : Fields) {right : Fields} (nested : Nested right) :
    ∃ merged bound, (∀ depth ≥ bound, merge depth left right = some merged) ∧
      (∀ path value, value.fields? = none →
        ((Value.record merged).at? path = some value ↔
          (Value.record right).at? path = some value ∨
            (Value.record left).at? path = some value ∧ (Value.record right).at? path = none ∧
              ¬(Value.record right).Blocked path)) ∧
      (∀ path,
        ((Value.record merged).fieldsAt? path).isSome = true ↔
          ((Value.record right).fieldsAt? path).isSome = true ∨
            ((Value.record left).fieldsAt? path).isSome = true ∧
              ¬(Value.record right).HasOtherAt path ∧ ¬(Value.record right).Blocked path) ∧
      (∀ path lower upper, (Value.record left).fieldsAt? path = some lower →
        (Value.record right).fieldsAt? path = some upper →
        ((Value.record merged).fieldsAt? path).map (List.map Prod.fst) =
          some (mergedKeys lower upper)) ∧
      (∀ path, ((Value.record merged).fieldsAt? path).isSome = true →
        (Value.record left).fieldsAt? path = none →
        (Value.record merged).at? path = (Value.record right).at? path) ∧
      (∀ path, ((Value.record merged).fieldsAt? path).isSome = true →
        (Value.record right).fieldsAt? path = none →
        (Value.record merged).at? path = (Value.record left).at? path) := by
  obtain ⟨bound, enough⟩ := nested.suffices
  obtain ⟨merged, performed⟩ := enough left
  have laid := laid_of_merge nested performed
  refine ⟨merged, bound, fun depth atLeast => keeps_merge_of_le atLeast _ _ _ performed, ?_, ?_, ?_,
    ?_, ?_⟩
  · exact fun path _ isOther => (laid path).other_iff isOther
  · exact fun path => (laid path).isRecord_iff
  · exact fun path _ _ isLower isUpper => (laid path).keys_eq isLower isUpper
  · exact fun path isRecord noRecord => (laid path).eq_above isRecord noRecord
  · exact fun path isRecord noRecord => (laid path).eq_below isRecord noRecord

/-- A record inside of a record. -/
def insideOther : Fields := [(.text "a", .record [(.text "b", .int 1)])]

theorem nested_insideOther : Nested insideOther := by
  refine .intro (List.pairwise_singleton _ _) ?_
  intro field member inner isRecord
  cases List.mem_singleton.mp member
  cases isRecord
  refine .intro (List.pairwise_singleton _ _) ?_
  intro field member inner isRecord
  cases List.mem_singleton.mp member
  cases isRecord

theorem merge_at_paths_insideOther :
    ∃ merged bound, (∀ depth ≥ bound,
        merge depth [(.text "a", .record [(.text "c", .int 2)])] insideOther = some merged) ∧
      (Value.record merged).at? [.text "a", .text "b"] = some (.int 1) := by
  obtain ⟨merged, bound, performed, others, _⟩ :=
    merge_at_paths [(.text "a", .record [(.text "c", .int 2)])] nested_insideOther
  exact ⟨merged, bound, performed, (others _ _ rfl).mpr (.inl rfl)⟩

end Fields

end ConfigGraph
