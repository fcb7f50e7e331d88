import ConfigGraph.Operator
import ConfigGraph.Proofs.Value.Record
import Mathlib.Data.List.Forall2

/-!
# Relations that operators keep

Operators look at values only through the names of their types, through truth values, numbers and
texts, and through the top levels of containers.  A relation of values that leaves these alike, and
that the containers and numbers made of related parts are in, is `Parametric`.  Operators then keep
it: they fail alike on related operands, or else give related values.  What `==` and `!=` answer is
the exception, because they look at where values come from and into the scopes of functions.

A property of values is the relation of a value that has it to itself.
-/

namespace ConfigGraph

/-- Layers of one kind and with the same keys, whose members are related. -/
inductive Layer.Related {κ α β : Type} (related : α → β → Prop) : Layer κ α → Layer κ β → Prop where
  | array {items : List α} {others : List β} :
      List.Forall₂ related items others → Related related (.array items) (.array others)
  | tuple {items : List α} {others : List β} :
      List.Forall₂ related items others → Related related (.tuple items) (.tuple others)
  | set {items : List α} {others : List β} :
      List.Forall₂ related items others → Related related (.set items) (.set others)
  | record {fields : List (κ × α)} {others : List (κ × β)} :
      List.Forall₂ (fun field other => field.1 = other.1 ∧ related field.2 other.2) fields others →
      Related related (.record fields) (.record others)

theorem Layer.related_self {κ α : Type} {related : α → α → Prop} {layer : Layer κ α}
    (members : ∀ member ∈ layer.members, related member member) :
    Layer.Related related layer layer := by
  cases layer with
  | array items => exact .array (List.forall₂_same.mpr members)
  | tuple items => exact .tuple (List.forall₂_same.mpr members)
  | set items => exact .set (List.forall₂_same.mpr members)
  | record fields =>
      refine .record (List.forall₂_same.mpr fun field member => ⟨rfl, ?_⟩)
      exact members field.2 (List.mem_map_of_mem member)

/-- Results that are the same failure, or related values. -/
inductive InAccord {ε α β : Type} (related : α → β → Prop) : Except ε α → Except ε β → Prop where
  | failure (failure : ε) : InAccord related (.error failure) (.error failure)
  | value {value : α} {other : β} : related value other → InAccord related (.ok value) (.ok other)

section

variable {ε α β : Type} {related better : α → β → Prop} {result : Except ε α} {other : Except ε β}

theorem InAccord.imp (accord : InAccord related result other)
    (implies : ∀ {value twin}, related value twin → better value twin) :
    InAccord better result other := by
  cases accord with
  | failure failure => exact .failure failure
  | value isRelated => exact .value (implies isRelated)

theorem InAccord.error_iff (accord : InAccord related result other) {failure : ε} :
    result = .error failure ↔ other = .error failure := by
  cases accord with
  | failure other => rw [Except.error.injEq, Except.error.injEq]
  | value => exact iff_of_false nofun nofun

end

theorem rel_map {α β γ δ : Type} {related : α → β → Prop} {better : γ → δ → Prop}
    {first : α → γ} {second : β → δ} {option : Option α} {other : Option β}
    (areRelated : Option.Rel related option other)
    (maps : ∀ {value other}, related value other → better (first value) (second other)) :
    Option.Rel better (option.map first) (other.map second) := by
  cases areRelated with
  | none => exact .none
  | some isRelated => exact .some (maps isRelated)

/-- A relation of values that operators keep, where the numbers that they make without a value of
their own get related marks. -/
structure Parametric (marks : Origin → Origin → Prop) (related : Value → Value → Prop) : Prop where
  typeName : ∀ {value other : Value}, related value other → value.typeName = other.typeName
  number? : ∀ {value other : Value}, related value other → value.number? = other.number?
  text : ∀ {value other : Value}, related value other →
    ∀ text, value = .text text ↔ other = .text text
  bool : ∀ {value other : Value}, related value other →
    ∀ truth, value = .bool truth ↔ other = .bool truth
  layer? : ∀ {value other : Value}, related value other →
    Option.Rel (Layer.Related related) value.layer? other.layer?
  ofNumber : ∀ {origin other : Origin} (number : Number), marks origin other →
    related (.ofNumber origin number) (.ofNumber other number)
  ofText : ∀ text, related (.text text) (.text text)
  ofBool : ∀ truth, related (.bool truth) (.bool truth)
  array : ∀ {items others : List Value}, List.Forall₂ related items others →
    related (.array items) (.array others)
  record : ∀ {fields others : Fields},
    List.Forall₂ (fun field other => field.1 = other.1 ∧ related field.2 other.2) fields others →
    related (.record fields) (.record others)

namespace Fields

variable {related : Value → Value → Prop} {left right fields others : Fields}

/-- Records with the same keys in the same order and with related values. -/
abbrev Related (related : Value → Value → Prop) : Fields → Fields → Prop :=
  List.Forall₂ fun field other => field.1 = other.1 ∧ related field.2 other.2

theorem Related.get? (areRelated : Related related fields others) (key : Value) :
    Option.Rel related (Fields.get? fields key) (Fields.get? others key) := by
  induction areRelated with
  | nil => exact .none
  | cons isRelated _ induction =>
      rw [get?_cons, get?_cons, ← isRelated.1]
      split
      · exact .some isRelated.2
      · exact induction

theorem Related.put {value other : Value} (isRelated : related value other)
    (areRelated : Related related fields others) (key : Value) :
    Related related (Fields.put key value fields) (Fields.put key other others) := by
  induction areRelated with
  | nil => exact .cons ⟨rfl, isRelated⟩ .nil
  | cons first rest induction =>
      unfold Fields.put
      rw [← first.1]
      split
      · exact .cons ⟨rfl, isRelated⟩ rest
      · exact .cons first induction

end Fields

namespace Parametric

variable {marks : Origin → Origin → Prop} {related : Value → Value → Prop}
  {left right leftOther rightOther value other : Value}

theorem fields? (parametric : Parametric marks related) (isRelated : related value other) :
    Option.Rel (Fields.Related related) value.fields? other.fields? := by
  have layersRelated := parametric.layer? isRelated
  unfold Value.fields?
  generalize value.layer? = layer, other.layer? = otherLayer at layersRelated ⊢
  cases layersRelated with
  | none => exact .none
  | some layers =>
      cases layers with
      | record areRelated => exact .some areRelated
      | array | tuple | set => exact .none

theorem items? (parametric : Parametric marks related) (isRelated : related value other) :
    Option.Rel (List.Forall₂ related) value.items? other.items? := by
  have layersRelated := parametric.layer? isRelated
  unfold Value.items?
  generalize value.layer? = layer, other.layer? = otherLayer at layersRelated ⊢
  cases layersRelated with
  | none => exact .none
  | some layers =>
      cases layers with
      | array areRelated => exact .some areRelated
      | record | tuple | set => exact .none

/-- Two operands are the same texts as those related to them, or neither pair is one of texts. -/
theorem texts (parametric : Parametric marks related) (leftRelated : related left leftOther)
    (rightRelated : related right rightOther) :
    (∃ first second, left = .text first ∧ leftOther = .text first ∧ right = .text second ∧
      rightOther = .text second) ∨
    (∀ first second, left = .text first → right ≠ .text second) ∧
      ∀ first second, leftOther = .text first → rightOther ≠ .text second := by
  by_cases areTexts : ∃ first second, left = .text first ∧ right = .text second
  · obtain ⟨first, second, isLeft, isRight⟩ := areTexts
    exact .inl ⟨first, second, isLeft, (parametric.text leftRelated first).mp isLeft, isRight,
      (parametric.text rightRelated second).mp isRight⟩
  · refine .inr ⟨fun first second isLeft isRight => areTexts ⟨first, second, isLeft, isRight⟩, ?_⟩
    intro first second isLeft isRight
    exact areTexts ⟨first, second, (parametric.text leftRelated first).mpr isLeft,
      (parametric.text rightRelated second).mpr isRight⟩

/-- A value and one that is related to it are the same truth value, or neither is one. -/
theorem bools (parametric : Parametric marks related) (isRelated : related value other) :
    (∃ truth, value = .bool truth ∧ other = .bool truth) ∨
      (∀ truth, value ≠ .bool truth) ∧ ∀ truth, other ≠ .bool truth := by
  by_cases isTruth : ∃ truth, value = .bool truth
  · obtain ⟨truth, same⟩ := isTruth
    exact .inl ⟨truth, same, (parametric.bool isRelated truth).mp same⟩
  · refine .inr ⟨fun truth same => isTruth ⟨truth, same⟩, fun truth same => ?_⟩
    exact isTruth ⟨truth, (parametric.bool isRelated truth).mpr same⟩

/-! ## Merging -/

theorem overlay (parametric : Parametric marks related)
    {lay : Fields → Fields → Option Fields}
    (keeps : ∀ {lower lowerOther upper upperOther : Fields},
      Fields.Related related lower lowerOther → Fields.Related related upper upperOther →
      Option.Rel (Fields.Related related) (lay lower upper) (lay lowerOther upperOther))
    {fields others : Fields} (areRelated : Fields.Related related fields others)
    {field fieldOther : Value × Value} (sameKey : field.1 = fieldOther.1)
    (isRelated : related field.2 fieldOther.2) :
    Option.Rel (Fields.Related related) (Fields.overlay lay fields field)
      (Fields.overlay lay others fieldOther) := by
  have put {value other : Value} (isRelated : related value other) :
      Fields.Related related (Fields.put field.1 value fields) (Fields.put field.1 other others) :=
    .put isRelated areRelated field.1
  have lowerRelated : Option.Rel (Fields.Related related)
      ((Fields.get? fields field.1).bind Value.fields?)
      ((Fields.get? others field.1).bind Value.fields?) := by
    have found := areRelated.get? field.1
    generalize Fields.get? fields field.1 = old, Fields.get? others field.1 = oldOther at found ⊢
    cases found with
    | none => exact .none
    | some isOld => exact parametric.fields? isOld
  have upperRelated := parametric.fields? isRelated
  unfold Fields.overlay
  rw [← sameKey]
  generalize (Fields.get? fields field.1).bind Value.fields? = lower,
    (Fields.get? others field.1).bind Value.fields? = lowerOther, field.2.fields? = upper,
    fieldOther.2.fields? = upperOther at lowerRelated upperRelated ⊢
  cases lowerRelated with
  | none => exact .some (put isRelated)
  | some lowerRelated =>
      cases upperRelated with
      | none => exact .some (put isRelated)
      | some upperRelated =>
          exact rel_map (keeps lowerRelated upperRelated) fun mergedRelated =>
            put (parametric.record mergedRelated)

theorem merge (parametric : Parametric marks related) (depth : Nat)
    {lower lowerOther upper upperOther : Fields}
    (lowerRelated : Fields.Related related lower lowerOther)
    (upperRelated : Fields.Related related upper upperOther) :
    Option.Rel (Fields.Related related) (Fields.merge depth lower upper)
      (Fields.merge depth lowerOther upperOther) := by
  -- Outside, the induction is on the depth of records in records; inside, on the fields laid over.
  induction depth generalizing lower lowerOther upper upperOther with
  | zero => exact .none
  | succ depth induction =>
      unfold Fields.merge
      induction upperRelated generalizing lower lowerOther with
      | nil => exact .some lowerRelated
      | cons first _ inner =>
          rw [List.foldlM_cons, List.foldlM_cons]
          have step := parametric.overlay induction lowerRelated first.1 first.2
          generalize Fields.overlay _ lower _ = middle at step
          generalize Fields.overlay _ lowerOther _ = middleOther at step
          cases step with
          | none => exact .none
          | some middleRelated => exact inner middleRelated

/-! ## Operators -/

theorem applyMerge (parametric : Parametric marks related) {depth : Nat}
    (leftRelated : related left leftOther) (rightRelated : related right rightOther) :
    InAccord related (BinaryOperator.applyMerge depth left right)
      (BinaryOperator.applyMerge depth leftOther rightOther) := by
  have lowerRelated := parametric.fields? leftRelated
  have upperRelated := parametric.fields? rightRelated
  unfold BinaryOperator.applyMerge
  generalize left.fields? = lower, leftOther.fields? = lowerOther, right.fields? = upper,
    rightOther.fields? = upperOther at lowerRelated upperRelated ⊢
  cases lowerRelated with
  | none => exact .failure _
  | @some lower lowerOther lowerRelated =>
      cases upperRelated with
      | none => exact .failure _
      | @some upper upperOther upperRelated =>
          have mergedRelated := parametric.merge depth lowerRelated upperRelated
          dsimp only
          generalize Fields.merge depth lower upper = merged,
            Fields.merge depth lowerOther upperOther = mergedOther at mergedRelated ⊢
          cases mergedRelated with
          | none => exact .failure _
          | some mergedRelated => exact .value (parametric.record mergedRelated)

theorem applyConcat (parametric : Parametric marks related)
    (leftRelated : related left leftOther) (rightRelated : related right rightOther) :
    InAccord related (BinaryOperator.applyConcat left right)
      (BinaryOperator.applyConcat leftOther rightOther) := by
  have leftItems := parametric.items? leftRelated
  have rightItems := parametric.items? rightRelated
  rcases parametric.texts leftRelated rightRelated with
    ⟨first, second, rfl, rfl, rfl, rfl⟩ | ⟨noTexts, noOthers⟩
  · exact .value (parametric.ofText _)
  · unfold BinaryOperator.applyConcat
    split
    case h_1 first second => exact absurd rfl (noTexts first second rfl)
    case h_2 =>
      generalize left.items? = items, leftOther.items? = itemsOther, right.items? = more,
        rightOther.items? = moreOther at leftItems rightItems ⊢
      cases leftItems with
      | none => exact .failure _
      | some leftItems =>
          cases rightItems with
          | none => exact .failure _
          | some rightItems =>
              exact .value (parametric.array (List.rel_append leftItems rightItems))

theorem order? (parametric : Parametric marks related)
    (leftRelated : related left leftOther) (rightRelated : related right rightOther) :
    BinaryOperator.order? left right = BinaryOperator.order? leftOther rightOther := by
  unfold BinaryOperator.order?
  rw [parametric.number? leftRelated, parametric.number? rightRelated]
  split
  · rfl
  · rcases parametric.texts leftRelated rightRelated with
      ⟨first, second, rfl, rfl, rfl, rfl⟩ | ⟨noTexts, noOthers⟩
    · rfl
    · split
      case h_1 first second => exact absurd rfl (noTexts first second rfl)
      case h_2 => rfl

theorem applyOrder (parametric : Parametric marks related) (accepted : List Ordering)
    (leftRelated : related left leftOther) (rightRelated : related right rightOther) :
    InAccord related (BinaryOperator.applyOrder accepted left right)
      (BinaryOperator.applyOrder accepted leftOther rightOther) := by
  unfold BinaryOperator.applyOrder
  rw [parametric.order? leftRelated rightRelated]
  cases BinaryOperator.order? leftOther rightOther with
  | error fault => exact .failure fault
  | ok order => exact .value (parametric.ofBool _)

theorem applyArithmetic (parametric : Parametric marks related) {origin originOther : Origin}
    (marked : marks origin originOther)
    (operation : Number → Number → Except Number.Overflow Number)
    (leftRelated : related left leftOther) (rightRelated : related right rightOther) :
    InAccord related (BinaryOperator.applyArithmetic origin operation left right)
      (BinaryOperator.applyArithmetic originOther operation leftOther rightOther) := by
  unfold BinaryOperator.applyArithmetic
  rw [parametric.number? leftRelated, parametric.number? rightRelated]
  split
  · split
    · exact .value (parametric.ofNumber _ marked)
    · exact .failure _
  · exact .failure _

theorem applyDivision (parametric : Parametric marks related) {origin originOther : Origin}
    (marked : marks origin originOther)
    (operation : Number → Number → Except Number.Overflow Number)
    (leftRelated : related left leftOther) (rightRelated : related right rightOther) :
    InAccord related (BinaryOperator.applyDivision origin operation left right)
      (BinaryOperator.applyDivision originOther operation leftOther rightOther) := by
  unfold BinaryOperator.applyDivision
  rw [parametric.number? leftRelated, parametric.number? rightRelated]
  split
  · split
    · exact .failure _
    · exact parametric.applyArithmetic marked operation leftRelated rightRelated
  · exact .failure _

/-- Operators keep the relation, as long as the operands are equal alike. -/
theorem apply (parametric : Parametric marks related) (depth : Nat) {origin originOther : Origin}
    (marked : marks origin originOther) (operator : BinaryOperator)
    (leftRelated : related left leftOther) (rightRelated : related right rightOther)
    (compared : operator = .equal ∨ operator = .notEqual →
      BinaryOperator.areEqual depth left right =
        BinaryOperator.areEqual depth leftOther rightOther) :
    InAccord related (operator.apply depth origin left right)
      (operator.apply depth originOther leftOther rightOther) := by
  have answered (answer : Bool → Bool) (isComparison : operator = .equal ∨ operator = .notEqual) :
      InAccord related
        ((BinaryOperator.areEqual depth left right).map fun given => .bool (answer given))
        ((BinaryOperator.areEqual depth leftOther rightOther).map fun given =>
          .bool (answer given)) := by
    rw [compared isComparison]
    cases BinaryOperator.areEqual depth leftOther rightOther with
    | error fault => exact .failure fault
    | ok given => exact .value (parametric.ofBool _)
  cases operator with
  | add | subtract | multiply =>
      exact parametric.applyArithmetic marked _ leftRelated rightRelated
  | divide | modulo => exact parametric.applyDivision marked _ leftRelated rightRelated
  | concat => exact parametric.applyConcat leftRelated rightRelated
  | merge => exact parametric.applyMerge leftRelated rightRelated
  | equal => exact answered id (.inl rfl)
  | notEqual => exact answered not (.inr rfl)
  | less | lessOrEqual | greater | greaterOrEqual =>
      exact parametric.applyOrder _ leftRelated rightRelated
  | conjunction | disjunction => exact .failure _

theorem unary (parametric : Parametric marks related) {origin originOther : Origin}
    (marked : marks origin originOther) (operator : UnaryOperator)
    (isRelated : related value other) :
    Option.Rel related (operator.value? origin value) (operator.value? originOther other) := by
  cases operator with
  | negate =>
      unfold UnaryOperator.value?
      rw [parametric.number? isRelated]
      cases other.number? with
      | none => exact .none
      | some number => exact .some (parametric.ofNumber _ marked)
  | negation =>
      unfold UnaryOperator.value?
      dsimp only
      split
      case h_1 truth =>
        rw [(parametric.bool isRelated _).mp rfl]
        exact .some (parametric.ofBool _)
      case h_2 noTruth =>
        split
        case h_1 truth => exact absurd ((parametric.bool isRelated truth).mpr rfl) (noTruth truth)
        case h_2 => exact .none

end Parametric

/-! ## Properties -/

/-- A property that operators pass on: numbers, texts and truth values have it, and containers have
it just as their members do. -/
structure Inherited (good : Value → Prop) : Prop where
  layer? : ∀ {value : Value} {layer : Layer Value Value}, good value → value.layer? = some layer →
    ∀ member ∈ layer.members, good member
  ofNumber : ∀ origin number, good (.ofNumber origin number)
  ofText : ∀ text, good (.text text)
  ofBool : ∀ truth, good (.bool truth)
  array : ∀ {items : List Value}, (∀ item ∈ items, good item) → good (.array items)
  record : ∀ {fields : Fields}, (∀ field ∈ fields, good field.2) → good (.record fields)

namespace Inherited

variable {good : Value → Prop} {left right value : Value}

theorem eq_and_forall_of_forall₂ {items others : List Value}
    (same : List.Forall₂ (fun value other => value = other ∧ good value) items others) :
    items = others ∧ ∀ item ∈ items, good item := by
  induction same with
  | nil => exact ⟨rfl, List.forall_mem_nil _⟩
  | cons first _ induction =>
      obtain ⟨rfl, isGood⟩ := first
      obtain ⟨rfl, areGood⟩ := induction
      exact ⟨rfl, List.forall_mem_cons.mpr ⟨isGood, areGood⟩⟩

theorem eq_and_forall_of_related {fields others : Fields}
    (same : Fields.Related (fun value other => value = other ∧ good value) fields others) :
    fields = others ∧ ∀ field ∈ fields, good field.2 := by
  induction same with
  | nil => exact ⟨rfl, List.forall_mem_nil _⟩
  | cons first _ induction =>
      obtain ⟨sameKey, sameValue, isGood⟩ := first
      obtain ⟨rfl, areGood⟩ := induction
      exact ⟨congrArg (· :: _) (Prod.ext sameKey sameValue),
        List.forall_mem_cons.mpr ⟨isGood, areGood⟩⟩

/-- Operators keep the relation of a value with the property to itself. -/
theorem parametric (inherited : Inherited good) :
    Parametric Eq fun value other => value = other ∧ good value where
  typeName same := by rw [same.1]
  number? same := by rw [same.1]
  text same text := by rw [same.1]
  bool same truth := by rw [same.1]
  layer? := by
    rintro value _ ⟨rfl, isGood⟩
    cases isLayer : value.layer? with
    | none => exact .none
    | some layer =>
        exact .some (Layer.related_self fun member isMember =>
          ⟨rfl, inherited.layer? isGood isLayer member isMember⟩)
  ofNumber number same := ⟨by rw [same], inherited.ofNumber _ number⟩
  ofText text := ⟨rfl, inherited.ofText text⟩
  ofBool truth := ⟨rfl, inherited.ofBool truth⟩
  array same := by
    obtain ⟨rfl, areGood⟩ := eq_and_forall_of_forall₂ same
    exact ⟨rfl, inherited.array areGood⟩
  record same := by
    obtain ⟨rfl, areGood⟩ := eq_and_forall_of_related same
    exact ⟨rfl, inherited.record areGood⟩

theorem fields? (inherited : Inherited good) (isGood : good value) {fields : Fields}
    (isFields : value.fields? = some fields) : ∀ field ∈ fields, good field.2 := by
  have same := inherited.parametric.fields? ⟨rfl, isGood⟩
  rw [isFields] at same
  cases same with
  | some related => exact (eq_and_forall_of_related related).2

theorem get? (inherited : Inherited good) (isGood : good left) {fields : Fields} {key : Value}
    (isFields : left.fields? = some fields) (found : Fields.get? fields key = some value) :
    good value := by
  obtain ⟨field, member, rfl⟩ := Fields.mem_of_get? found
  exact inherited.fields? isGood isFields field member

/-- An operator gives a value with the property if its operands have it. -/
theorem apply (inherited : Inherited good) {depth : Nat} {origin : Origin}
    {operator : BinaryOperator} (applied : operator.apply depth origin left right = .ok value)
    (leftGood : good left) (rightGood : good right) : good value := by
  have same := inherited.parametric.apply depth (rfl : origin = origin) operator ⟨rfl, leftGood⟩
    ⟨rfl, rightGood⟩ fun _ => rfl
  rw [applied] at same
  cases same with
  | value related => exact related.2

theorem unary (inherited : Inherited good) {origin : Origin} {operator : UnaryOperator}
    (applied : operator.value? origin left = some value) (leftGood : good left) : good value := by
  have same := inherited.parametric.unary (rfl : origin = origin) operator ⟨rfl, leftGood⟩
  rw [applied] at same
  cases same with
  | some related => exact related.2

end Inherited

end ConfigGraph
