import ConfigGraph.Proofs.Json.Parts

/-!
# Plain data and their text

The text that is written for plain data reads back as the data, with the same order of fields at every
level.
-/

namespace ConfigGraph.Json

variable {rest : Text}

/-! ## Blanks -/

theorem skipBlanks_of_not {code : CodePoint} (notBlank : isBlank code = false) (rest : Text) :
    skipBlanks (code :: rest) = code :: rest := by
  rw [skipBlanks, List.dropWhile_cons_of_neg (by simp [notBlank])]

theorem skipBlanks_lineAt (depth : Nat) (text : Text) :
    skipBlanks (lineAt depth ++ text) = skipBlanks text := by
  unfold skipBlanks
  rw [List.dropWhile_append_of_pos]
  intro code member
  rcases List.mem_cons.mp member with rfl | isSpace
  · rfl
  · rw [List.eq_of_mem_replicate isSpace]
    rfl

theorem ended_lineAt (depth : Nat) (text : Text) : Ended (lineAt depth ++ text) := .line _

/-! ## One step of the reader -/

section Steps

variable {bound : Nat} {text behind others body behindName valueText : Text} {name : Text}
  {item member : Json} {items : List Json} {fields all : List (Text × Json)}

theorem readItems_last (first : readValue bound text = .ok (item, behind))
    (closes : skipBlanks behind = CodePoint.ofChar ']' :: rest) :
    readItems (bound + 1) text = .ok ([item], rest) := by
  rw [readItems, first]
  simp only [bind, Except.bind, closes]
  exact if_pos rfl

theorem readItems_next (first : readValue bound text = .ok (item, behind))
    (comma : skipBlanks behind = CodePoint.ofChar ',' :: others)
    (next : readItems bound (skipBlanks others) = .ok (items, rest)) :
    readItems (bound + 1) text = .ok (item :: items, rest) := by
  rw [readItems, first]
  simp only [bind, Except.bind, comma]
  refine (if_neg fun same => absurd (Option.some.inj same) (by decide)).trans ((if_pos rfl).trans ?_)
  rw [List.drop_one, List.tail_cons, next]
  rfl

theorem readMembers_last (named : readString body = .ok (name, behindName))
    (colon : skipBlanks behindName = CodePoint.ofChar ':' :: valueText)
    (value : readValue bound (skipBlanks valueText) = .ok (member, behind))
    (closes : skipBlanks behind = CodePoint.ofChar '}' :: rest) :
    readMembers (bound + 1) fields (CodePoint.ofChar '"' :: body) =
      .ok (put name member fields, rest) := by
  rw [readMembers]
  refine (if_neg fun other => other rfl).trans ?_
  rw [List.drop_one, List.tail_cons, named]
  simp only [bind, Except.bind, colon]
  refine (if_neg fun other => other rfl).trans ?_
  rw [List.drop_one, List.tail_cons, value]
  simp only [closes]
  exact if_pos rfl

theorem readMembers_next (named : readString body = .ok (name, behindName))
    (colon : skipBlanks behindName = CodePoint.ofChar ':' :: valueText)
    (value : readValue bound (skipBlanks valueText) = .ok (member, behind))
    (comma : skipBlanks behind = CodePoint.ofChar ',' :: others)
    (next : readMembers bound (put name member fields) (skipBlanks others) = .ok (all, rest)) :
    readMembers (bound + 1) fields (CodePoint.ofChar '"' :: body) = .ok (all, rest) := by
  rw [readMembers]
  refine (if_neg fun other => other rfl).trans ?_
  rw [List.drop_one, List.tail_cons, named]
  simp only [bind, Except.bind, colon]
  refine (if_neg fun other => other rfl).trans ?_
  rw [List.drop_one, List.tail_cons, value]
  simp only [comma]
  refine (if_neg fun same => absurd (Option.some.inj same) (by decide)).trans ((if_pos rfl).trans ?_)
  rw [List.drop_one, List.tail_cons, next]

end Steps

/-! ## Values -/

/-- A value reads back from the text that is written for it at any depth. -/
def Reads (json : Json) : Prop :=
  ∀ (depth bound : Nat) (rest : Text), Ended rest → (encodeAt depth json).length ≤ bound →
    readValue bound (encodeAt depth json ++ rest) = .ok (json, rest)

/-- The text of a value starts as values do. -/
theorem head_encodeAt {json : Json} (legible : json.Legible) (depth : Nat) :
    ∃ code text, encodeAt depth json = code :: text ∧ code ∉ neverFirst := by
  have scalar {text : Text} {result : Json × Text} (read : readScalar text = .ok result) :
      ∃ code rest, text = code :: rest ∧ code ∉ neverFirst := by
    obtain ⟨code, rest, split, notOther⟩ := head_of_readScalar read
    exact ⟨code, rest, split, fun never =>
      notOther (List.mem_cons_of_mem _ (List.mem_cons_of_mem _ (List.mem_cons_of_mem _ never)))⟩
  cases json with
  | null => exact ⟨_, _, rfl, by decide⟩
  | bool value => cases value <;> exact ⟨_, _, rfl, by decide⟩
  | number value =>
      cases value with
      | int value => exact scalar (readScalar_ofInt legible.writable_own)
      | float value => exact scalar legible.readsBack_own.readScalar
  | string value => exact ⟨_, _, rfl, by decide⟩
  | array items => cases items <;> exact ⟨_, _, rfl, by decide⟩
  | object fields => cases fields <;> exact ⟨_, _, rfl, by decide⟩

theorem not_isBlank {code : CodePoint} (starts : code ∉ neverFirst) : isBlank code = false := by
  rw [Bool.eq_false_iff]
  intro blank
  apply starts
  simp only [isBlank, Bool.or_eq_true, beq_iff_eq] at blank
  rcases blank with ((rfl | rfl) | rfl) | rfl <;> decide

theorem skipBlanks_encodeAt {json : Json} (legible : json.Legible) (depth : Nat) (rest : Text) :
    skipBlanks (encodeAt depth json ++ rest) = encodeAt depth json ++ rest := by
  obtain ⟨code, text, split, starts⟩ := head_encodeAt legible depth
  rw [split, List.cons_append, skipBlanks_of_not (not_isBlank starts)]

/-- There is room for one step at least. -/
theorem exists_less {text : Text} {bound : Nat} (nonempty : text ≠ [])
    (enough : text.length ≤ bound) : ∃ less, bound = less + 1 :=
  Nat.exists_eq_add_one.mpr (Nat.lt_of_lt_of_le (List.length_pos_iff.mpr nonempty) enough)

theorem encodeAt_ne_nil {json : Json} (legible : json.Legible) (depth : Nat) :
    encodeAt depth json ≠ [] := by
  obtain ⟨code, text, split, _⟩ := head_encodeAt legible depth
  rw [split]
  exact List.cons_ne_nil code text

theorem reads_of_readScalar {json : Json}
    (read : ∀ depth, readScalar (encodeAt depth json) = .ok (json, [])) : Reads json := by
  intro depth bound rest ended enough
  obtain ⟨code, text, split, _⟩ := head_of_readScalar (read depth)
  obtain ⟨less, rfl⟩ := exists_less (split ▸ List.cons_ne_nil code text) enough
  exact readValue_of_readScalar (readScalar_before ended (read depth)) less

theorem skipBlanks_lineAt_encodeAt {json : Json} (legible : json.Legible) (depth : Nat)
    (rest : Text) :
    skipBlanks (lineAt depth ++ (encodeAt depth json ++ rest)) = encodeAt depth json ++ rest := by
  rw [skipBlanks_lineAt, skipBlanks_encodeAt legible]

/-- Items read back up to the bracket that closes their array. -/
theorem readItems_encodeItems {items : List Json} {item : Json}
    (legible : ∀ other ∈ item :: items, other.Legible) (reads : ∀ other ∈ item :: items, Reads other)
    (depth outer bound : Nat) (rest : Text)
    (enough : (encodeAt depth item).length + (encodeItems depth items).length < bound) :
    readItems bound (encodeAt depth item ++ (encodeItems depth items ++ (lineAt outer ++
      CodePoint.ofChar ']' :: rest))) = .ok (item :: items, rest) := by
  induction items generalizing item bound with
  | nil =>
      obtain ⟨less, rfl⟩ := Nat.exists_eq_add_one.mpr (Nat.zero_lt_of_lt enough)
      refine readItems_last (reads item List.mem_cons_self depth less _ (ended_lineAt outer _)
        (Nat.le_trans (Nat.le_add_right _ _) (Nat.le_of_lt_succ enough))) ?_
      rw [encodeItems, List.nil_append, skipBlanks_lineAt, skipBlanks_of_not (by decide)]
  | cons second items induction =>
      obtain ⟨less, rfl⟩ := Nat.exists_eq_add_one.mpr (Nat.zero_lt_of_lt enough)
      obtain ⟨readsItem, readsOthers⟩ := List.forall_mem_cons.mp reads
      obtain ⟨_, legibleOthers⟩ := List.forall_mem_cons.mp legible
      -- The comma in front of an item makes up for the step that reads the item before.
      simp only [encodeItems, List.length_append, lineAt, List.length_cons] at enough
      have split : encodeItems depth (second :: items) = CodePoint.ofChar ',' ::
          (lineAt depth ++ (encodeAt depth second ++ encodeItems depth items)) := by
        simp only [encodeItems, List.append_assoc]
        rfl
      rw [split, List.cons_append, List.append_assoc, List.append_assoc]
      refine readItems_next (readsItem depth less _ (.comma _) (by omega))
        (skipBlanks_of_not (by decide) _) ?_
      rw [skipBlanks_lineAt_encodeAt (legibleOthers second List.mem_cons_self)]
      exact induction legibleOthers readsOthers less (by omega)

/-- The text of a field at a depth. -/
def encodeField (depth : Nat) (field : Text × Json) : Text :=
  encodeString field.1 ++ ": " ++ encodeAt depth field.2

theorem encodeFields_cons (depth : Nat) (field : Text × Json) (fields : List (Text × Json)) :
    encodeFields depth (field :: fields) = CodePoint.ofChar ',' ::
      (lineAt depth ++ (encodeField depth field ++ encodeFields depth fields)) := by
  simp only [encodeFields, encodeField, List.append_assoc]
  rfl

/-- The name of a field reads back, and its value comes next. -/
theorem readString_encodeField {field : Text × Json} (unpaired : field.1.Unpaired)
    (legible : field.2.Legible) (depth : Nat) (rest : Text) :
    ∃ body behindName valueText, encodeField depth field ++ rest = CodePoint.ofChar '"' :: body ∧
      readString body = .ok (field.1, behindName) ∧
      skipBlanks behindName = CodePoint.ofChar ':' :: valueText ∧
      skipBlanks valueText = encodeAt depth field.2 ++ rest := by
  obtain ⟨body, split, named⟩ := readString_encodeString unpaired
    (CodePoint.ofChar ':' :: CodePoint.ofChar ' ' :: (encodeAt depth field.2 ++ rest))
  refine ⟨body, _, CodePoint.ofChar ' ' :: (encodeAt depth field.2 ++ rest), ?_, named,
    skipBlanks_of_not (by decide) _, ?_⟩
  · rw [← split]
    simp only [encodeField, List.append_assoc]
    rfl
  · exact skipBlanks_encodeAt legible depth rest

theorem encodeAt_lt_encodeField (depth : Nat) (field : Text × Json) :
    (encodeAt depth field.2).length < (encodeField depth field).length := by
  simp only [encodeField, encodeString, List.length_append]
  have quote : (Text.ofString "\"").length = 1 := rfl
  omega

theorem skipBlanks_encodeField (depth : Nat) (field : Text × Json) (rest : Text) :
    skipBlanks (encodeField depth field ++ rest) = encodeField depth field ++ rest :=
  skipBlanks_of_not (by decide) _

/-- A new field reads back, whether it is the last one or others follow. -/
theorem readMembers_encodeField {field : Text × Json} (unpaired : field.1.Unpaired)
    (legible : field.2.Legible) (reads : Reads field.2) {done : List (Text × Json)}
    (new : field.1 ∉ done.map (·.1)) {depth bound : Nat}
    (enough : (encodeField depth field).length ≤ bound) {behind : Text} (ended : Ended behind) :
    (∀ rest, skipBlanks behind = CodePoint.ofChar '}' :: rest →
      readMembers (bound + 1) done (encodeField depth field ++ behind) =
        .ok (done ++ [field], rest)) ∧
    ∀ others all rest, skipBlanks behind = CodePoint.ofChar ',' :: others →
      readMembers bound (done ++ [field]) (skipBlanks others) = .ok (all, rest) →
      readMembers (bound + 1) done (encodeField depth field ++ behind) = .ok (all, rest) := by
  obtain ⟨body, behindName, valueText, split, named, colon, isValue⟩ :=
    readString_encodeField unpaired legible depth behind
  have shorter := encodeAt_lt_encodeField depth field
  have value : readValue bound (skipBlanks valueText) = .ok (field.2, behind) := by
    rw [isValue]
    exact reads depth bound behind ended (by omega)
  rw [split, ← put_of_new new]
  constructor
  · intro rest closes
    exact readMembers_last named colon value closes
  · intro others all rest comma next
    exact readMembers_next named colon value comma next

/-- Fields read back up to the brace that closes their object, behind those that are read already. -/
theorem readMembers_encodeFields {fields : List (Text × Json)} {field : Text × Json}
    (unpaired : ∀ other ∈ field :: fields, other.1.Unpaired)
    (legible : ∀ other ∈ field :: fields, other.2.Legible)
    (reads : ∀ other ∈ field :: fields, Reads other.2) (done : List (Text × Json))
    (distinct : ((done ++ field :: fields).map (·.1)).Nodup) (depth outer bound : Nat) (rest : Text)
    (enough : (encodeField depth field).length + (encodeFields depth fields).length < bound) :
    readMembers bound done (encodeField depth field ++ (encodeFields depth fields ++
      (lineAt outer ++ CodePoint.ofChar '}' :: rest))) = .ok (done ++ field :: fields, rest) := by
  induction fields generalizing field bound done with
  | nil =>
      obtain ⟨less, rfl⟩ := Nat.exists_eq_add_one.mpr (Nat.zero_lt_of_lt enough)
      have new := Keys.notMem_of_nodup distinct
      rw [encodeFields, List.nil_append]
      refine (readMembers_encodeField (unpaired field List.mem_cons_self)
        (legible field List.mem_cons_self) (reads field List.mem_cons_self) new (by omega)
        (ended_lineAt outer _)).1 rest ?_
      rw [skipBlanks_lineAt, skipBlanks_of_not (by decide)]
  | cons second fields induction =>
      obtain ⟨less, rfl⟩ := Nat.exists_eq_add_one.mpr (Nat.zero_lt_of_lt enough)
      have new := Keys.notMem_of_nodup distinct
      obtain ⟨unpairedField, unpairedOthers⟩ := List.forall_mem_cons.mp unpaired
      obtain ⟨legibleField, legibleOthers⟩ := List.forall_mem_cons.mp legible
      obtain ⟨readsField, readsOthers⟩ := List.forall_mem_cons.mp reads
      rw [encodeFields_cons] at enough ⊢
      simp only [List.length_cons, List.length_append] at enough
      simp only [List.cons_append, List.append_assoc]
      refine (readMembers_encodeField unpairedField legibleField readsField new (by omega)
        (.comma _)).2 _ _ rest (skipBlanks_of_not (by decide) _) ?_
      have sameDone : done ++ field :: second :: fields = done ++ [field] ++ second :: fields :=
        List.append_cons _ _ _
      rw [skipBlanks_lineAt, skipBlanks_encodeField, sameDone]
      exact induction unpairedOthers legibleOthers readsOthers (done ++ [field])
        (by simpa using distinct) less (by omega)

/-! ## Whole texts -/

theorem encodeAt_array_cons (depth : Nat) (item : Json) (items : List Json) :
    encodeAt depth (array (item :: items)) = CodePoint.ofChar '[' :: (lineAt (depth + 1) ++
      (encodeAt (depth + 1) item ++ (encodeItems (depth + 1) items ++ (lineAt depth ++
        [CodePoint.ofChar ']'])))) := by
  simp only [encodeAt, List.append_assoc]
  rfl

theorem encodeAt_object_cons (depth : Nat) (field : Text × Json) (fields : List (Text × Json)) :
    encodeAt depth (object (field :: fields)) = CodePoint.ofChar '{' :: (lineAt (depth + 1) ++
      (encodeField (depth + 1) field ++ (encodeFields (depth + 1) fields ++ (lineAt depth ++
        [CodePoint.ofChar '}'])))) := by
  simp only [encodeAt, encodeField, List.append_assoc]
  rfl

/-- Every value that is legible reads back. -/
theorem reads_of_legible {json : Json} (legible : json.Legible) : Reads json := by
  induction json with
  | null => exact reads_of_readScalar fun _ => rfl
  | bool value => cases value <;> exact reads_of_readScalar fun _ => rfl
  | number value =>
      cases value with
      | int value => exact reads_of_readScalar fun _ => readScalar_ofInt legible.writable_own
      | float value => exact reads_of_readScalar fun _ => legible.readsBack_own.readScalar
  | string value =>
      intro depth bound rest ended enough
      obtain ⟨less, rfl⟩ := exists_less (encodeAt_ne_nil legible depth) enough
      obtain ⟨body, split, read⟩ :=
        readString_encodeString (legible.unpaired_own value List.mem_cons_self) rest
      rw [encodeAt, split, readValue, if_pos rfl, read]
      rfl
  | array items induction =>
      intro depth bound rest ended enough
      obtain ⟨less, rfl⟩ := exists_less (encodeAt_ne_nil legible depth) enough
      cases items with
      | nil => rfl
      | cons item items =>
          rw [encodeAt_array_cons] at enough ⊢
          simp only [List.length_cons, List.length_append] at enough
          simp only [List.cons_append, List.append_assoc, List.nil_append]
          have inner := readItems_encodeItems (fun other member => legible.item member)
            (fun other member => induction other member (legible.item member)) (depth + 1) depth
            less rest (by omega)
          rw [readValue, if_neg (by decide), if_pos rfl]
          dsimp only
          rw [skipBlanks_lineAt_encodeAt (legible.item List.mem_cons_self), if_neg, inner]
          · rfl
          · obtain ⟨code, text, split, starts⟩ :=
              head_encodeAt (legible.item List.mem_cons_self) (depth + 1)
            rw [split]
            exact fun same => starts (Option.some.inj same ▸ by decide)
  | object fields induction =>
      intro depth bound rest ended enough
      obtain ⟨less, rfl⟩ := exists_less (encodeAt_ne_nil legible depth) enough
      cases fields with
      | nil => rfl
      | cons field fields =>
          rw [encodeAt_object_cons] at enough ⊢
          simp only [List.length_cons, List.length_append] at enough
          simp only [List.cons_append, List.append_assoc, List.nil_append]
          have inner := readMembers_encodeFields
            (fun other member => legible.unpaired_own other.1 (List.mem_map_of_mem member))
            (fun other member => legible.field member)
            (fun other member => induction other member (legible.field member)) [] legible.distinct
            (depth + 1) depth less rest (by omega)
          rw [readValue, if_neg (by decide), if_neg (by decide), if_pos rfl]
          dsimp only
          rw [skipBlanks_lineAt, skipBlanks_encodeField, if_neg, inner]
          · rfl
          · exact fun same => absurd (Option.some.inj same) (by decide)

/-- Plain data that are legible read back from their text, also from one that ends with a line. -/
theorem decode_encode {json : Json} (legible : json.Legible) {ending : Text}
    (isEnding : ending = [] ∨ ending = [CodePoint.ofChar '\n']) :
    decode (encode json ++ ending) = .ok json := by
  have ended : Ended ending := by
    rcases isEnding with rfl | rfl
    · exact .nil
    · exact .line []
  have blank : skipBlanks ending = [] := by
    rcases isEnding with rfl | rfl <;> rfl
  have noMark : (encode json ++ ending).head? ≠ CodePoint.ofNat? 0xfeff := by
    obtain ⟨code, text, split, starts⟩ := head_encodeAt legible 0
    rw [encode, split]
    exact fun same => starts (Option.some.inj same ▸ by decide)
  have enough : (encodeAt 0 json).length ≤ 2 * (encode json ++ ending).length + 2 := by
    rw [List.length_append, encode]
    omega
  have read : readValue (2 * (encode json ++ ending).length + 2)
      (skipBlanks (encode json ++ ending)) = .ok (json, ending) := by
    rw [encode, skipBlanks_encodeAt legible]
    exact reads_of_legible legible 0 _ ending ended enough
  unfold decode
  rw [if_neg noMark, read]
  simp only [bind, Except.bind, blank, if_true]
  rfl

end ConfigGraph.Json
