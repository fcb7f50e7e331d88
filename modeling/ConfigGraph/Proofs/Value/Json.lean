import ConfigGraph.Proofs.Json.Parts
import ConfigGraph.Proofs.Sequence
import ConfigGraph.Value.Json

/-!
# Values and plain data

What a load gives to its host never has a name twice in an object.  Plain data that are taken as a
value are given back as they are.
-/

namespace ConfigGraph

open Json

namespace Value

/-! ## Objects have distinct names -/

/-- Plain data that are given have distinct names at every level. -/
def GivesKeyed (outcome : Except Obstacle Json) : Prop :=
  ∀ json, outcome = .ok json → json.Keyed

/-- What a member of a knot leads to outside of the knot gives such data. -/
def LinkKeyed (link : PlainLink) : Prop := ∀ outcome, link = .value outcome → GivesKeyed outcome

theorem fieldsKeyed_foldl {fields done : List (Text × Json)} (doneKeyed : FieldsKeyed done)
    (keyed : ∀ field ∈ fields, field.2.Keyed) :
    FieldsKeyed (fields.foldl (fun known field => Json.put field.1 field.2 known) done) := by
  induction fields generalizing done with
  | nil => exact doneKeyed
  | cons field fields induction =>
      obtain ⟨fieldKeyed, othersKeyed⟩ := List.forall_mem_cons.mp keyed
      exact induction (doneKeyed.put field.1 fieldKeyed) othersKeyed

/-- A knot unfolds with distinct names if what is outside of it has distinct names. -/
theorem keyed_unfold {nodes : List (Layer (Except Obstacle Text) PlainLink)}
    (keyed : ∀ layer ∈ nodes, ∀ link ∈ layer.members, LinkKeyed link) (depth : Nat)
    (active : List Nat) (index : Nat) : GivesKeyed (unfold nodes depth active index) := by
  induction depth generalizing active index with
  | zero => exact fun _ given => nomatch given
  | succ depth induction =>
      intro json given
      rw [Value.unfold] at given
      split at given
      case h_1 =>
        cases given
        exact keyed_of_parts rfl nofun
      case h_2 layer isLayer =>
        split at given
        case isTrue => cases given
        case isFalse =>
          have linkKeyed := keyed layer (List.mem_of_getElem? isLayer)
          have valueKeyed {outcome : Except Obstacle Json} (isLink : .value outcome ∈ layer.members) :
              GivesKeyed outcome := linkKeyed _ isLink outcome rfl
          have nodeKeyed (other : Nat) : GivesKeyed (unfold nodes depth (index :: active) other) :=
            induction (index :: active) other
          dsimp only at given
          split at given
          case h_1 items | h_2 items | h_3 items =>
            obtain ⟨given, isGiven, same⟩ := of_bind_eq_ok given
            cases same
            rw [keyed_array]
            intro json member
            obtain ⟨link, isLink, gives⟩ := of_mapM_eq_ok isGiven json member
            cases link with
            | value outcome => exact valueKeyed isLink json gives
            | node other => exact nodeKeyed other json gives
          case h_4 fields =>
            obtain ⟨given, isGiven, same⟩ := of_bind_eq_ok given
            cases same
            rw [keyed_object]
            refine fieldsKeyed_foldl fieldsKeyed_nil fun field isField => ?_
            obtain ⟨original, isOriginal, gives⟩ := of_mapM_eq_ok isGiven field isField
            obtain ⟨name, _, gives⟩ := of_bind_eq_ok gives
            obtain ⟨json, isJson, same⟩ := of_bind_eq_ok gives
            cases same
            obtain ⟨key, link⟩ := original
            cases link with
            | value outcome => exact valueKeyed (List.mem_map_of_mem isOriginal) json isJson
            | node other => exact nodeKeyed other json isJson

mutual

theorem keyed_plain : (value : Value) → GivesKeyed (plain value)
  | .null | .bool _ | .int _ | .float _ | .nan _ | .text _ | .date _ | .dateTime _ => by
      rintro json ⟨⟩
      exact keyed_of_parts rfl nofun
  | .bytes value => by
      rintro json ⟨⟩
      rw [keyed_array]
      intro item member
      obtain ⟨byte, _, rfl⟩ := List.mem_map.mp member
      exact keyed_of_parts rfl nofun
  | .array items | .tuple items | .set items => by
      intro json gives
      obtain ⟨given, isGiven, same⟩ := of_bind_eq_ok gives
      cases same
      exact keyed_array.mpr (keyed_plainItems items given isGiven)
  | .record fields => by
      intro json gives
      obtain ⟨given, isGiven, same⟩ := of_bind_eq_ok gives
      cases same
      exact keyed_object.mpr (keyed_plainFields fields [] fieldsKeyed_nil given isGiven)
  | .function .. | .foreign _ => fun _ given => nomatch given
  | .knot _ nodes index => keyed_unfold (keyed_plainLayers nodes) _ _ _

theorem keyed_plainItems : (items : List Value) → ∀ given, plainItems items = .ok given →
    ∀ item ∈ given, item.Keyed
  | [] => by
      rintro given ⟨⟩
      exact List.forall_mem_nil _
  | item :: items => by
      intro given isGiven
      obtain ⟨first, isFirst, rest⟩ := of_bind_eq_ok isGiven
      obtain ⟨others, areOthers, same⟩ := of_bind_eq_ok rest
      cases same
      exact List.forall_mem_cons.mpr
        ⟨keyed_plain item first isFirst, keyed_plainItems items others areOthers⟩

theorem keyed_plainFields : (fields : Fields) → ∀ done, FieldsKeyed done →
    ∀ given, plainFields done fields = .ok given → FieldsKeyed given
  | [] => by
      rintro done doneKeyed given ⟨⟩
      exact doneKeyed
  | (key, value) :: fields => by
      intro done doneKeyed given isGiven
      obtain ⟨name, _, rest⟩ := of_bind_eq_ok isGiven
      obtain ⟨json, isJson, rest⟩ := of_bind_eq_ok rest
      exact keyed_plainFields fields _ (doneKeyed.put name (keyed_plain value json isJson)) given rest

theorem keyed_plainLayers : (layers : List (Layer Value (Link Value))) →
    ∀ layer ∈ plainLayers layers, ∀ link ∈ layer.members, LinkKeyed link
  | [] => List.forall_mem_nil _
  | layer :: layers => List.forall_mem_cons.mpr ⟨keyed_plainLayer layer, keyed_plainLayers layers⟩

theorem keyed_plainLayer : (layer : Layer Value (Link Value)) →
    ∀ link ∈ (plainLayer layer).members, LinkKeyed link
  | .array items | .tuple items | .set items => keyed_plainLinks items
  | .record fields => keyed_plainFieldLinks fields

theorem keyed_plainLinks : (links : List (Link Value)) →
    ∀ link ∈ plainLinks links, LinkKeyed link
  | [] => List.forall_mem_nil _
  | link :: links => List.forall_mem_cons.mpr ⟨keyed_plainLink link, keyed_plainLinks links⟩

theorem keyed_plainFieldLinks : (fields : List (Value × Link Value)) →
    ∀ link ∈ (plainFieldLinks fields).map (·.2), LinkKeyed link
  | [] => List.forall_mem_nil _
  | (_, link) :: fields =>
      List.forall_mem_cons.mpr ⟨keyed_plainLink link, keyed_plainFieldLinks fields⟩

theorem keyed_plainLink : (link : Link Value) → LinkKeyed (plainLink link)
  | .value value => by
      rintro outcome ⟨⟩
      exact keyed_plain value
  | .node _ => fun _ same => nomatch same

end

/-! ## Plain data stay as they are -/

/-- There is only one float that is no number and reads back. -/
theorem eq_nan_of_readsBack {value : Float} (readsBack : ReadsBack value)
    (isNaN : Binary64.isNaN value = true) : value = Binary64.nan := by
  have noNumber : Binary64.parts value = .nan := beq_iff_eq.mp isNaN
  have read : Json.number? "NaN" = some (.float value) := by
    rw [ReadsBack, encodeNumber, noNumber] at readsBack
    exact readsBack
  have isNan : Json.number? "NaN" = some (.float Binary64.nan) := rfl
  rw [isNan] at read
  exact (Number.float.inj (Option.some.inj read)).symm

theorem plain_ofNumber {number : Number} (legible : (Json.number number).Legible)
    (origin : Origin) : plain (ofNumber origin number) = .ok (.number number) := by
  cases number with
  | int value => rfl
  | float value =>
      rw [ofNumber]
      split
      case isTrue isNaN => rw [eq_nan_of_readsBack legible.readsBack_own isNaN, plain]
      case isFalse => rfl

theorem plainItems_ofJsonItems {items : List Json}
    (same : ∀ item ∈ items, plain (ofJson item) = .ok item) :
    plainItems (ofJsonItems items) = .ok items := by
  induction items with
  | nil => rfl
  | cons item items induction =>
      obtain ⟨first, others⟩ := List.forall_mem_cons.mp same
      rw [ofJsonItems, plainItems, first, induction others]
      rfl

theorem plainFields_ofJsonFields {fields done : List (Text × Json)}
    (same : ∀ field ∈ fields, plain (ofJson field.2) = .ok field.2)
    (distinct : ((done ++ fields).map (·.1)).Nodup) :
    plainFields done (ofJsonFields fields) = .ok (done ++ fields) := by
  induction fields generalizing done with
  | nil => rw [ofJsonFields, plainFields, List.append_nil]
  | cons field fields induction =>
      obtain ⟨first, others⟩ := List.forall_mem_cons.mp same
      have sameDone : done ++ field :: fields = done ++ [field] ++ fields := List.append_cons _ _ _
      have new := Keys.notMem_of_nodup distinct
      rw [sameDone] at distinct
      rw [sameDone, ← induction others distinct, ← put_of_new new, ofJsonFields, plainFields, first]
      rfl

/-- Plain data that are legible are given back when they are taken as a value. -/
theorem plain_ofJson {json : Json} (legible : json.Legible) : plain (ofJson json) = .ok json := by
  induction json with
  | null | bool | string => rfl
  | number value => exact plain_ofNumber legible .json
  | array items induction =>
      rw [ofJson, plain, plainItems_ofJsonItems fun item member =>
        induction item member (legible.item member)]
      rfl
  | object fields induction =>
      rw [ofJson, plain, plainFields_ofJsonFields (fun field member =>
        induction field member (legible.field member)) (by simpa using legible.distinct)]
      rfl

end Value

end ConfigGraph
