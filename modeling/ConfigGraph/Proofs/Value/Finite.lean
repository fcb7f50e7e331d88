import ConfigGraph.Proofs.Value.Overlay
import ConfigGraph.Proofs.Value.Parametric

/-!
# Finite values

A value is finite if nothing can be taken out of it again and again for ever, neither out of
containers nor out of the scopes of functions.  Only aliases in a document make values that are not.
Operators make finite values of finite ones, and for these some depth suffices to compare and to
merge them.
-/

namespace ConfigGraph

namespace Value

/-- The values that a value is made of: the members of a container, and what a function sees. -/
def parts (value : Value) : List Value :=
  match value.layer?, value with
  | some layer, _ => layer.members
  | none, function _ _ _ scope _ => scope.map (·.2)
  | none, _ => []

/-- A value that is made of finite values. -/
inductive IsFinite : Value → Prop where
  | intro {value : Value} : (∀ part ∈ value.parts, part.IsFinite) → value.IsFinite

variable {left right value : Value}

theorem IsFinite.part {part : Value} (finite : value.IsFinite) (isPart : part ∈ value.parts) :
    part.IsFinite := by
  cases finite with
  | intro parts => exact parts part isPart

theorem parts_of_layer? {layer : Layer Value Value} (isLayer : value.layer? = some layer) :
    value.parts = layer.members := by
  unfold parts
  rw [isLayer]

theorem finite_of_no_parts (noParts : value.parts = []) : value.IsFinite := by
  refine .intro ?_
  rw [noParts]
  exact List.forall_mem_nil _

theorem finite_function {origin : Origin} {parameters : List Text} {body : Expr} {scope : Scope}
    {source : Source} :
    (function origin parameters body scope source).IsFinite ↔
      ∀ binding ∈ scope, binding.2.IsFinite := by
  constructor
  · intro finite binding isBinding
    exact finite.part (List.mem_map_of_mem isBinding)
  · intro finite
    refine .intro fun part isPart => ?_
    obtain ⟨binding, isBinding, rfl⟩ := List.mem_map.mp isPart
    exact finite binding isBinding

theorem finite_ofNumber (origin : Origin) (number : Number) :
    (ofNumber origin number).IsFinite := by
  cases number with
  | int value => exact finite_of_no_parts rfl
  | float value =>
      by_cases isNaN : Binary64.isNaN value
      · rw [ofNumber, if_pos isNaN]
        exact finite_of_no_parts rfl
      · rw [ofNumber, if_neg isNaN]
        exact finite_of_no_parts rfl

/-- Operators make finite values of finite ones. -/
theorem inherited_isFinite : Inherited IsFinite where
  layer? finite isLayer member isMember := by
    apply finite.part
    rw [parts_of_layer? isLayer]
    exact isMember
  ofNumber := finite_ofNumber
  ofText text := finite_of_no_parts rfl
  ofBool truth := finite_of_no_parts rfl
  array finite := .intro finite
  record finite := by
    refine .intro fun part isPart => ?_
    obtain ⟨field, isField, rfl⟩ := List.mem_map.mp isPart
    exact finite field isField

/-! ## Comparing -/

theorem isSome_allTrue {answers : List (Option Bool)}
    (each : ∀ answer ∈ answers, answer.isSome = true) : (allTrue answers).isSome = true := by
  induction answers with
  | nil => rfl
  | cons answer answers induction =>
      obtain ⟨first, others⟩ := List.forall_mem_cons.mp each
      rcases answer with _ | _ | _
      · cases first
      · rfl
      · exact induction others

theorem isSome_sameLists {α : Type} {answer : α → α → Option Bool} {lefts rights : List α}
    (each : ∀ left ∈ lefts, ∀ right ∈ rights, (answer left right).isSome = true) :
    (sameLists answer lefts rights).isSome = true := by
  unfold sameLists
  split
  · refine isSome_allTrue fun given isGiven => ?_
    rw [← List.map_uncurry_zip_eq_zipWith] at isGiven
    obtain ⟨pair, isPair, rfl⟩ := List.mem_map.mp isGiven
    obtain ⟨isLeft, isRight⟩ := List.of_mem_zip isPair
    exact each _ isLeft _ isRight
  · rfl

theorem isSome_sameFields {κ α : Type} {sameKey : κ → κ → Bool} {answer : α → α → Option Bool}
    {lefts rights : List (κ × α)}
    (each : ∀ left ∈ lefts, ∀ right ∈ rights, (answer left.2 right.2).isSome = true) :
    (sameFields sameKey answer lefts rights).isSome = true := by
  unfold sameFields
  split
  · refine isSome_allTrue fun given isGiven => ?_
    obtain ⟨field, isField, rfl⟩ := List.mem_map.mp isGiven
    cases found : lookupBy sameKey field.1 rights with
    | none => rfl
    | some other =>
        obtain ⟨right, isFound, rfl⟩ := Option.map_eq_some_iff.mp found
        exact each field isField right (List.mem_of_find?_eq_some isFound)
  · rfl

theorem mem_of_mem_visible {scope : Scope} {binding : Text × Value}
    (member : binding ∈ visible scope) : binding ∈ scope := by
  induction scope with
  | nil => cases member
  | cons first rest induction =>
      rcases List.mem_cons.mp member with rfl | isOther
      · exact List.mem_cons_self
      · exact List.mem_cons_of_mem _ (induction (List.mem_of_mem_filter isOther))

/-- A depth that suffices to compare what two values are made of suffices, with one more, for the
values. -/
theorem isSome_same_succ {depth : Nat}
    (each : ∀ part ∈ left.parts, ∀ other ∈ right.parts, (same depth part other).isSome = true) :
    (same (depth + 1) left right).isSome = true := by
  have member (part other : Value) (isPart : part ∈ left.parts) (isOther : other ∈ right.parts) :
      (if identical part other then some true else same depth part other).isSome = true := by
    split
    · rfl
    · exact each part isPart other isOther
  unfold same
  split
  case h_1 lefts rights isLeft isRight | h_2 lefts rights isLeft isRight =>
    rw [parts_of_layer? isLeft, parts_of_layer? isRight] at member
    exact isSome_sameLists fun part isPart other isOther => member part other isPart isOther
  case h_3 => rfl
  case h_4 lefts rights isLeft isRight =>
    rw [parts_of_layer? isLeft, parts_of_layer? isRight] at member
    exact isSome_sameFields fun field isField other isOther =>
      member field.2 other.2 (List.mem_map_of_mem isField) (List.mem_map_of_mem isOther)
  case h_5 =>
    split
    · split
      · rfl
      · split
        · exact isSome_sameFields fun binding isBinding other isOther =>
            member binding.2 other.2 (List.mem_map_of_mem (mem_of_mem_visible isBinding))
              (List.mem_map_of_mem (mem_of_mem_visible isOther))
        · rfl
    · rfl
  case h_6 => rfl

theorem isSome_same_mono {depth larger : Nat} (atLeast : depth ≤ larger)
    (answered : (same depth left right).isSome = true) :
    (same larger left right).isSome = true := by
  induction atLeast with
  | refl => exact answered
  | step _ induction =>
      obtain ⟨answer, isAnswer⟩ := Option.isSome_iff_exists.mp induction
      rw [keeps_same_succ _ left right answer isAnswer]
      rfl

/-- Some depth suffices to compare a finite value with another one. -/
theorem IsFinite.exists_same (finite : left.IsFinite) (right : Value) :
    ∃ depth, (same depth left right).isSome = true := by
  induction finite generalizing right with
  | @intro left _ induction =>
      have each : ∀ part ∈ left.parts, ∃ depth, ∀ other ∈ right.parts,
          (same depth part other).isSome = true := fun part isPart =>
        exists_depth isSome_same_mono fun other _ => induction part isPart other
      obtain ⟨depth, enough⟩ := exists_depth (fun atLeast enough other isOther =>
        isSome_same_mono atLeast (enough other isOther)) each
      exact ⟨depth + 1, isSome_same_succ enough⟩

end Value

/-! ## Merging -/

namespace Fields

/-- Some depth suffices to lay a finite record over any other one. -/
theorem exists_suffices {value : Value} (finite : value.IsFinite) {fields : Fields}
    (isFields : value.fields? = some fields) : ∃ depth, Suffices depth fields := by
  induction finite generalizing fields with
  | @intro value _ induction =>
      have isPart {field : Value × Value} (member : field ∈ fields) : field.2 ∈ value.parts := by
        unfold Value.fields? at isFields
        split at isFields
        case h_1 layer isLayer =>
          cases isFields
          rw [Value.parts_of_layer? isLayer]
          exact List.mem_map_of_mem member
        case h_2 => cases isFields
      obtain ⟨depth, enough⟩ := suffices_inner fun field member inner isInner =>
        induction field.2 (isPart member) isInner
      exact ⟨depth + 1, suffices_succ enough⟩

end Fields

/-! ## Operators -/

namespace BinaryOperator

variable {left right : Value}

theorem exists_areEqual_ends (leftFinite : left.IsFinite) (right : Value) (answer : Bool → Value) :
    ∃ depth, (areEqual depth left right).map answer ≠ .error .unending := by
  obtain ⟨depth, isSome⟩ := leftFinite.exists_same right
  obtain ⟨same, isSame⟩ := Option.isSome_iff_exists.mp isSome
  refine ⟨depth, ?_⟩
  unfold areEqual
  rw [isSame]
  split <;> exact nofun

theorem exists_applyMerge_ends (left : Value) (rightFinite : right.IsFinite) :
    ∃ depth, applyMerge depth left right ≠ .error .unending := by
  unfold applyMerge
  split
  case h_1 lower upper isLower isUpper =>
    obtain ⟨depth, enough⟩ := Fields.exists_suffices rightFinite isUpper
    obtain ⟨merged, performed⟩ := enough lower
    exact ⟨depth, by rw [performed]; exact nofun⟩
  case h_2 => exact ⟨0, nofun⟩

theorem applyOrder_ends (accepted : List Ordering) :
    applyOrder accepted left right ≠ .error .unending := by
  unfold applyOrder order?
  split
  · exact nofun
  · split <;> exact nofun

theorem applyConcat_ends : applyConcat left right ≠ .error .unending := by
  unfold applyConcat
  split
  · exact nofun
  · split <;> exact nofun

section

variable {origin : Origin} {operation : Number → Number → Except Number.Overflow Number}

theorem applyArithmetic_ends : applyArithmetic origin operation left right ≠ .error .unending := by
  unfold applyArithmetic
  split
  · split <;> exact nofun
  · exact nofun

theorem applyDivision_ends : applyDivision origin operation left right ≠ .error .unending := by
  unfold applyDivision
  split
  · split
    · exact nofun
    · exact applyArithmetic_ends
  · exact nofun

end

/-- Some depth suffices to apply an operator to finite values. -/
theorem exists_apply (leftFinite : left.IsFinite) (rightFinite : right.IsFinite) (origin : Origin)
    (operator : BinaryOperator) :
    ∃ depth, operator.apply depth origin left right ≠ .error .unending := by
  cases operator with
  | add | subtract | multiply => exact ⟨0, applyArithmetic_ends⟩
  | divide | modulo => exact ⟨0, applyDivision_ends⟩
  | concat => exact ⟨0, applyConcat_ends⟩
  | merge => exact exists_applyMerge_ends left rightFinite
  | equal | notEqual => exact exists_areEqual_ends leftFinite right _
  | less | lessOrEqual | greater | greaterOrEqual => exact ⟨0, applyOrder_ends _⟩
  | conjunction | disjunction => exact ⟨0, nofun⟩

end BinaryOperator

end ConfigGraph
