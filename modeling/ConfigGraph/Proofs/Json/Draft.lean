import ConfigGraph.Proofs.Json.Parts

/-!
# Values that are written piece by piece

What is written of a value is the start of its text, and all of it just when no integer in the value
has too many digits.
-/

namespace ConfigGraph.Json

/-! ## Drafts of texts -/

namespace Draft

/-- What a draft holds of a text: its start, and all of it just when nothing is missing. -/
structure Of (draft : Draft) (text : Text) : Prop where
  starts : draft.text <+: text
  whole_iff : draft.whole = true ↔ draft.text = text

theorem Of.text_eq {draft : Draft} {text : Text} (isDraft : draft.Of text)
    (whole : draft.whole = true) : draft.text = text := isDraft.whole_iff.mp whole

theorem of_ofText (text : Text) : (ofText text).Of text := ⟨List.prefix_refl _, by simp [ofText]⟩

theorem of_nothing {text : Text} (nonempty : text ≠ []) : nothing.Of text where
  starts := List.nil_prefix
  whole_iff := by simp [nothing, nonempty.symm]

theorem whole_append (first second : Draft) :
    (first ++ second).whole = (first.whole && second.whole) := by
  show (append first second).whole = _
  unfold append
  cases isWhole : first.whole <;> simp [isWhole]

theorem text_append {first : Draft} (whole : first.whole = true) (second : Draft) :
    (first ++ second).text = first.text ++ second.text :=
  congrArg Draft.text (if_pos whole)

theorem append_of_not_whole {first : Draft} (part : first.whole = false) (second : Draft) :
    first ++ second = first := if_neg (by simp [part])

theorem append_ofText_nil (draft : Draft) : draft ++ ofText [] = draft := by
  show append draft (ofText []) = draft
  obtain ⟨text, whole⟩ := draft
  cases whole <;> simp [append, ofText]

/-- Two texts one behind the other are written one behind the other. -/
theorem Of.append {first second : Draft} {text others : Text} (isDraft : first.Of text)
    (isNext : second.Of others) : (first ++ second).Of (text ++ others) := by
  cases whole : first.whole with
  | true =>
      have isText := isDraft.text_eq whole
      constructor
      · rw [text_append whole, isText]
        exact (List.prefix_append_right_inj text).mpr isNext.starts
      · rw [whole_append, whole, Bool.true_and, text_append whole, isText, isNext.whole_iff,
          List.append_cancel_left_eq]
  | false =>
      rw [append_of_not_whole whole]
      refine ⟨isDraft.starts.trans (List.prefix_append _ _), ?_⟩
      -- A draft with the whole text behind it would be longer than its own text.
      have missing : first.text ≠ text := fun same => by
        rw [isDraft.whole_iff.mpr same] at whole
        cases whole
      refine iff_of_false (by simp [whole]) fun same => missing ?_
      have long : text.length + others.length ≤ text.length := by
        rw [← List.length_append, ← same]
        exact isDraft.starts.length_le
      have noOthers : others = [] := List.length_eq_zero_iff.mp (by omega)
      rw [same, noOthers, List.append_nil]

end Draft

/-! ## Drafts of values -/

theorem encodeNumber_int_ne_nil (value : Int) : encodeNumber (.int value) ≠ [] := by
  cases value with
  | ofNat number => exact Text.ofNat_ne_nil number
  | negSucc number => exact List.cons_ne_nil _ _

theorem of_draftNumber (value : Number) : (draftNumber value).Of (encodeNumber value) := by
  cases value with
  | int value =>
      rw [draftNumber]
      split
      · exact Draft.of_ofText _
      · exact Draft.of_nothing (encodeNumber_int_ne_nil value)
  | float value => exact Draft.of_ofText _

theorem of_draftBehind {lead text : Text} {draft : Draft} (nonempty : lead ≠ []) (item : Json)
    (isDraft : draft.Of text) : (draftBehind lead item draft).Of (lead ++ text) := by
  unfold draftBehind
  split
  case h_1 =>
    split
    case isTrue whole =>
      rw [isDraft.text_eq whole]
      exact Draft.of_ofText _
    case isFalse => exact Draft.of_nothing (List.append_ne_nil_of_left_ne_nil nonempty _)
  case h_2 => exact (Draft.of_ofText lead).append isDraft

theorem whole_draftBehind (lead : Text) (item : Json) (draft : Draft) :
    (draftBehind lead item draft).whole = draft.whole := by
  unfold draftBehind
  split
  case h_1 => cases whole : draft.whole <;> simp [Draft.nothing, Draft.ofText]
  case h_2 => rw [Draft.whole_append, Draft.ofText, Bool.true_and]

mutual

/-- What is written of a value at a depth is a draft of its text. -/
theorem of_draftAt (depth : Nat) : (json : Json) → (draftAt depth json).Of (encodeAt depth json)
  | null | bool _ | string _ | array [] | object [] => by
      rw [draftAt]
      exact Draft.of_ofText _
  | number value => of_draftNumber value
  | array (item :: items) => by
      rw [draftAt, encodeAt, List.append_assoc _ (lineAt depth)]
      refine ((of_draftBehind ?_ item (of_draftAt (depth + 1) item)).append
        (of_draftItems (depth + 1) items)).append (Draft.of_ofText _)
      exact List.append_ne_nil_of_left_ne_nil (List.cons_ne_nil _ _) _
  | object ((name, value) :: fields) => by
      rw [draftAt, encodeAt, List.append_assoc _ (lineAt depth)]
      exact (((Draft.of_ofText _).append (of_draftAt (depth + 1) value)).append
        (of_draftFields (depth + 1) fields)).append (Draft.of_ofText _)

theorem of_draftItems (depth : Nat) : (items : List Json) →
    (draftItems depth items).Of (encodeItems depth items)
  | [] => Draft.of_ofText []
  | item :: items => by
      rw [draftItems, encodeItems]
      refine (of_draftBehind ?_ item (of_draftAt depth item)).append (of_draftItems depth items)
      exact List.append_ne_nil_of_left_ne_nil (List.cons_ne_nil _ _) _

theorem of_draftFields (depth : Nat) : (fields : List (Text × Json)) →
    (draftFields depth fields).Of (encodeFields depth fields)
  | [] => Draft.of_ofText []
  | (name, value) :: fields => by
      rw [draftFields, encodeFields]
      exact ((Draft.of_ofText _).append (of_draftAt depth value)).append
        (of_draftFields depth fields)

end

/-! ## Integers with too many digits -/

/-- Digits are counted by powers of ten. -/
theorem writable_iff {json : Json} :
    json.Writable ↔ ∀ value ∈ json.integers, value.natAbs < Nat.pow 10 Number.digitLimit := by
  refine forall₂_congr fun value _ => ?_
  rw [isWritable, decide_eq_true_eq]
  have positive : 0 < Number.digitLimit := by decide
  generalize Number.digitLimit = limit at positive ⊢
  exact Text.length_ofNat_le_iff positive

theorem writable_array {items : List Json} :
    (array items).Writable ↔ ∀ item ∈ items, item.Writable := by
  unfold Writable integers
  rw [parts, partsOfItems_eq, List.filterMap_cons_none rfl]
  simp only [List.mem_filterMap, List.mem_flatMap]
  constructor
  · rintro writable item member value ⟨part, inside, isInteger⟩
    exact writable value ⟨part, ⟨item, member, inside⟩, isInteger⟩
  · rintro writable value ⟨part, ⟨item, member, inside⟩, isInteger⟩
    exact writable item member value ⟨part, inside, isInteger⟩

theorem writable_object {fields : List (Text × Json)} :
    (object fields).Writable ↔ ∀ field ∈ fields, field.2.Writable := by
  unfold Writable integers
  rw [parts, partsOfFields_eq, List.filterMap_cons_none rfl]
  simp only [List.mem_filterMap, List.mem_flatMap]
  constructor
  · rintro writable field member value ⟨part, inside, isInteger⟩
    exact writable value ⟨part, ⟨field, member, inside⟩, isInteger⟩
  · rintro writable value ⟨part, ⟨field, member, inside⟩, isInteger⟩
    exact writable field member value ⟨part, inside, isInteger⟩

theorem whole_draftItems (depth : Nat) (items : List Json) :
    (draftItems depth items).whole = true ↔ ∀ item ∈ items, (draftAt depth item).whole = true := by
  induction items with
  | nil => simp [draftItems, Draft.ofText]
  | cons item items induction =>
      rw [draftItems, Draft.whole_append, whole_draftBehind, Bool.and_eq_true, induction,
        List.forall_mem_cons]

theorem whole_draftFields (depth : Nat) (fields : List (Text × Json)) :
    (draftFields depth fields).whole = true ↔
      ∀ field ∈ fields, (draftAt depth field.2).whole = true := by
  induction fields with
  | nil => simp [draftFields, Draft.ofText]
  | cons field fields induction =>
      rw [draftFields, Draft.whole_append, Draft.whole_append, Draft.ofText, Bool.true_and,
        Bool.and_eq_true, induction, List.forall_mem_cons]

/-- A value is written as a whole just when no integer in it has too many digits. -/
theorem whole_draftAt_iff (json : Json) (depth : Nat) :
    (draftAt depth json).whole = true ↔ json.Writable := by
  induction json generalizing depth with
  | null => simp [draftAt, Draft.ofText, Writable, integers, parts, integer?]
  | bool value => simp [draftAt, Draft.ofText, Writable, integers, parts, integer?]
  | string value => simp [draftAt, Draft.ofText, Writable, integers, parts, integer?]
  | number value =>
      cases value with
      | int value =>
          cases writable : isWritable value <;>
            simp [draftAt, draftNumber, Draft.ofText, Draft.nothing, Writable, integers, parts,
              integer?, writable]
      | float value =>
          simp [draftAt, draftNumber, Draft.ofText, Writable, integers, parts, integer?]
  | array items induction =>
      rw [writable_array]
      cases items with
      | nil => simp [draftAt, Draft.ofText]
      | cons item items =>
          obtain ⟨first, others⟩ := List.forall_mem_cons.mp induction
          rw [draftAt, Draft.whole_append, Draft.whole_append, whole_draftBehind, Draft.ofText,
            Bool.and_true, Bool.and_eq_true, whole_draftItems, List.forall_mem_cons, first]
          exact and_congr_right' (forall₂_congr fun other member => others other member _)
  | object fields induction =>
      rw [writable_object]
      cases fields with
      | nil => simp [draftAt, Draft.ofText]
      | cons field fields =>
          obtain ⟨first, others⟩ := List.forall_mem_cons.mp induction
          rw [draftAt, Draft.whole_append, Draft.whole_append, Draft.whole_append, Draft.ofText,
            Draft.ofText, Bool.true_and, Bool.and_true, Bool.and_eq_true, whole_draftFields,
            List.forall_mem_cons, first]
          exact and_congr_right' (forall₂_congr fun other member => others other member _)

/-- What is written of a value is the start of its text, and all of it just when no integer in it has
too many digits. -/
theorem of_draft (json : Json) :
    (draft json).Of (encode json) ∧ ((draft json).whole = true ↔ json.Writable) :=
  ⟨of_draftAt 0 json, whole_draftAt_iff json 0⟩

end ConfigGraph.Json
