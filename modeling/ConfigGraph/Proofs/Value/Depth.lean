import ConfigGraph.Operator
import Mathlib.Data.List.Forall2

/-!
# More depth

Comparing and merging values take a depth.  If the depth suffices for an answer then one more gives
the same answer, and so does any larger one.
-/

namespace ConfigGraph

/-- An answer that comes of one computation comes of the other one too. -/
def Keeps {α : Type} (first second : Option α) : Prop :=
  ∀ answer, first = some answer → second = some answer

theorem Keeps.refl {α : Type} (result : Option α) : Keeps result result := fun _ given => given

/-- One depth for all of some items, if each of them has one. -/
theorem exists_depth {α : Type} {enough : Nat → α → Prop} {items : List α}
    (mono : ∀ {depth larger item}, depth ≤ larger → enough depth item → enough larger item)
    (each : ∀ item ∈ items, ∃ depth, enough depth item) :
    ∃ depth, ∀ item ∈ items, enough depth item := by
  induction items with
  | nil => exact ⟨0, List.forall_mem_nil _⟩
  | cons item items induction =>
      obtain ⟨first, others⟩ := List.forall_mem_cons.mp each
      obtain ⟨depth, isEnough⟩ := first
      obtain ⟨larger, areEnough⟩ := induction others
      refine ⟨max depth larger, List.forall_mem_cons.mpr ⟨?_, fun other isOther => ?_⟩⟩
      · exact mono (Nat.le_max_left _ _) isEnough
      · exact mono (Nat.le_max_right _ _) (areEnough other isOther)

namespace Value

/-! ## Comparing -/

theorem keeps_allTrue {first second : List (Option Bool)}
    (keeps : List.Forall₂ Keeps first second) : Keeps (allTrue first) (allTrue second) := by
  induction keeps with
  | nil => exact .refl _
  | @cons answer other _ _ keeps _ induction =>
      rcases answer with _ | _ | _
      · exact nofun
      · rw [keeps false rfl]
        exact .refl _
      · rw [keeps true rfl]
        exact induction

variable {α κ : Type} {first second : α → α → Option Bool}

theorem forall₂_zipWith (keeps : ∀ left right, Keeps (first left right) (second left right))
    (lefts rights : List α) :
    List.Forall₂ Keeps (List.zipWith first lefts rights) (List.zipWith second lefts rights) := by
  induction lefts generalizing rights with
  | nil => exact .nil
  | cons left lefts induction =>
      cases rights with
      | nil => exact .nil
      | cons right rights => exact .cons (keeps left right) (induction rights)

theorem keeps_sameLists (keeps : ∀ left right, Keeps (first left right) (second left right))
    (lefts rights : List α) :
    Keeps (sameLists first lefts rights) (sameLists second lefts rights) := by
  unfold sameLists
  split
  · exact keeps_allTrue (forall₂_zipWith keeps lefts rights)
  · exact .refl _

theorem keeps_sameFields {sameKey : κ → κ → Bool}
    (keeps : ∀ left right, Keeps (first left right) (second left right))
    (lefts rights : List (κ × α)) :
    Keeps (sameFields sameKey first lefts rights) (sameFields sameKey second lefts rights) := by
  unfold sameFields
  split
  · refine keeps_allTrue (List.forall₂_map_left_iff.mpr (List.forall₂_map_right_iff.mpr ?_))
    refine List.forall₂_same.mpr fun field _ => ?_
    cases lookupBy sameKey field.1 rights with
    | none => exact .refl (some false)
    | some other => exact keeps field.2 other
  · exact .refl _

theorem keeps_same_succ (depth : Nat) (left right : Value) :
    Keeps (same depth left right) (same (depth + 1) left right) := by
  induction depth generalizing left right with
  | zero => exact nofun
  | succ depth induction =>
      have member (left right : Value) :
          Keeps (if identical left right then some true else same depth left right)
            (if identical left right then some true else same (depth + 1) left right) := by
        split
        · exact .refl _
        · exact induction left right
      unfold same
      split
      · exact keeps_sameLists member _ _
      · exact keeps_sameLists member _ _
      · exact .refl _
      · exact keeps_sameFields member _ _
      · split
        · split
          · exact .refl _
          · split
            · exact keeps_sameFields member _ _
            · exact .refl _
        · exact .refl _
      · exact .refl _

end Value

/-! ## Merging -/

namespace Fields

theorem keeps_foldlM {α β : Type} {first second : β → α → Option β}
    (keeps : ∀ state item, Keeps (first state item) (second state item)) (items : List α)
    (state : β) : Keeps (items.foldlM first state) (items.foldlM second state) := by
  induction items generalizing state with
  | nil => exact .refl _
  | cons item items induction =>
      intro answer given
      rw [List.foldlM_cons] at given ⊢
      obtain ⟨next, isNext, rest⟩ := Option.bind_eq_some_iff.mp given
      exact Option.bind_eq_some_iff.mpr ⟨next, keeps state item next isNext, induction next _ rest⟩

theorem keeps_merge_succ (depth : Nat) (left right : Fields) :
    Keeps (merge depth left right) (merge (depth + 1) left right) := by
  induction depth generalizing left right with
  | zero => exact nofun
  | succ depth induction =>
      rw [merge, merge]
      refine keeps_foldlM (fun state field => ?_) right left
      unfold overlay
      split
      · intro answer given
        obtain ⟨merged, isMerged, rfl⟩ := Option.map_eq_some_iff.mp given
        exact Option.map_eq_some_iff.mpr ⟨merged, induction _ _ merged isMerged, rfl⟩
      · exact .refl _

end Fields

/-! ## Operators -/

namespace BinaryOperator

theorem areEqual_succ {depth : Nat} {left right : Value}
    (ended : areEqual depth left right ≠ .error .unending) :
    areEqual (depth + 1) left right = areEqual depth left right := by
  unfold areEqual at ended ⊢
  split at ended
  · rw [if_pos ‹_›, if_pos ‹_›]
    cases answered : Value.same depth left right with
    | none =>
        rw [answered] at ended
        exact absurd rfl ended
    | some answer => rw [Value.keeps_same_succ depth left right answer answered]
  · rw [if_neg ‹_›, if_neg ‹_›]

theorem applyMerge_succ {depth : Nat} {left right : Value}
    (ended : applyMerge depth left right ≠ .error .unending) :
    applyMerge (depth + 1) left right = applyMerge depth left right := by
  unfold applyMerge at ended ⊢
  split at ended
  · cases merged : Fields.merge depth _ _ with
    | none =>
        rw [merged] at ended
        exact absurd rfl ended
    | some fields => rw [Fields.keeps_merge_succ depth _ _ fields merged]
  · rfl

/-- What an operator comes to with a depth that suffices it comes to with one more. -/
theorem apply_succ {depth : Nat} {origin : Origin} {operator : BinaryOperator} {left right : Value}
    (ended : operator.apply depth origin left right ≠ .error .unending) :
    operator.apply (depth + 1) origin left right = operator.apply depth origin left right := by
  have equal {answer : Bool → Value}
      (ended : (areEqual depth left right).map answer ≠ .error .unending) :
      (areEqual (depth + 1) left right).map answer = (areEqual depth left right).map answer := by
    rw [areEqual_succ]
    intro unending
    rw [unending] at ended
    exact ended rfl
  cases operator with
  | merge => exact applyMerge_succ ended
  | equal | notEqual => exact equal ended
  | _ => rfl

/-- What an operator comes to with a depth that suffices it comes to with any larger one. -/
theorem apply_of_le {depth larger : Nat} (atLeast : depth ≤ larger) {origin : Origin}
    {operator : BinaryOperator} {left right : Value}
    (ended : operator.apply depth origin left right ≠ .error .unending) :
    operator.apply larger origin left right = operator.apply depth origin left right := by
  induction atLeast with
  | refl => rfl
  | step _ induction =>
      rw [← induction] at ended
      rw [apply_succ ended, induction]

end BinaryOperator

end ConfigGraph
