import ConfigGraph.Proofs.Evaluation.Outcome
import ConfigGraph.Proofs.Value.Structure

/-!
# Comparisons of data

Whether two data are equal is told by their types and by their structure when true counts as one and
false as zero.  This is an equivalence; it is sameness of structure unless a boolean inside of one of
them meets the number that it counts as.
-/

namespace ConfigGraph

open Value (IsData SameStructure Clash)

theorem BinaryOperator.exists_areEqual {left right : Value} (isLeft : IsData left)
    (isRight : IsData right) :
    ∃ answer, (∀ depth > sizeOf left, areEqual depth left right = .ok answer) ∧
      (answer = true ↔
        left.typeName = right.typeName ∧ SameStructure left.counted right.counted) := by
  by_cases sameType : left.typeName = right.typeName
  · obtain ⟨answer, _, holds⟩ :=
      Value.decides_same isLeft isRight (Nat.lt_succ_self (sizeOf left))
    refine ⟨answer, fun depth enough => ?_, by simpa [sameType] using holds⟩
    obtain ⟨other, isOther, alsoHolds⟩ := Value.decides_same isLeft isRight enough
    have sameAnswer : other = answer := Bool.eq_iff_iff.mpr (alsoHolds.trans holds.symm)
    rw [areEqual, if_pos sameType, isOther, sameAnswer]
  · refine ⟨false, fun depth _ => ?_, by simp [sameType]⟩
    rw [areEqual, if_neg sameType]

theorem Value.SameStructure.typeName_eq {left right : Value} (same : SameStructure left right) :
    left.typeName = right.typeName := by
  cases same <;> rfl

namespace Evaluation

variable {depth : Nat} {store : Store} {site : Site} {source : Source} {scope : Scope} {span : Span}
  {session middle last : Session}

theorem gives_binary {operator : BinaryOperator} (eager : isLogical operator = false)
    {leftPart rightPart : Expr} {left right value : Value}
    (givesLeft : Gives (ofExpr depth store (site.step 0) source scope leftPart) session left middle)
    (givesRight : Gives (ofExpr depth store (site.step 1) source scope rightPart) middle right last)
    (applied : operator.apply depth site.origin left right = .ok value) :
    Gives (ofExpr (depth + 1) store site source scope (.binary span operator leftPart rightPart))
      session value last := by
  rw [ofExpr_binary _ _ _ _ _ _ eager, gives_bind]
  refine ⟨left, middle, givesLeft, gives_bind.mpr ⟨right, last, givesRight, ?_⟩⟩
  unfold applyOperator
  rw [applied]
  exact gives_pure.mpr ⟨rfl, rfl⟩

/-- What the two comparisons of expressions come to, whatever it is that gives the two values. -/
def Compares (answer : Bool) (left right : Value) : Prop :=
  ∃ bound, ∀ depth ≥ bound, ∀ (store : Store) (site : Site) (source : Source) (scope : Scope)
    (span : Span) (leftPart rightPart : Expr) (session middle last : Session),
    Gives (ofExpr depth store (site.step 0) source scope leftPart) session left middle →
    Gives (ofExpr depth store (site.step 1) source scope rightPart) middle right last →
      Gives (ofExpr (depth + 1) store site source scope (.binary span .equal leftPart rightPart))
        session (.bool answer) last ∧
      Gives (ofExpr (depth + 1) store site source scope (.binary span .notEqual leftPart rightPart))
        session (.bool !answer) last

theorem exists_compares {left right : Value} (isLeft : IsData left) (isRight : IsData right) :
    ∃ answer, Compares answer left right ∧
      (answer = true ↔
        left.typeName = right.typeName ∧ SameStructure left.counted right.counted) := by
  obtain ⟨answer, areEqual, holds⟩ := BinaryOperator.exists_areEqual isLeft isRight
  refine ⟨answer, ⟨sizeOf left + 1, ?_⟩, holds⟩
  intro depth enough store site source scope span leftPart rightPart session middle last givesLeft
    givesRight
  constructor
  · refine gives_binary rfl givesLeft givesRight ?_
    rw [BinaryOperator.apply, areEqual depth enough]
    rfl
  · refine gives_binary rfl givesLeft givesRight ?_
    rw [BinaryOperator.apply, areEqual depth enough]
    rfl

theorem gives_identifier {name : Text} {value : Value}
    (found : (scope.find? fun binding => binding.1 = name) = some (name, value)) :
    Gives (ofExpr (depth + 1) store site source scope (.identifier span name)) session value
      session := by
  change Gives (lookup source span scope name) session value session
  unfold lookup
  rw [found]
  exact gives_pure.mpr ⟨rfl, rfl⟩

theorem Compares.unique {answer other : Bool} {left right : Value}
    (compares : Compares answer left right) (others : Compares other left right) :
    answer = other := by
  obtain ⟨bound, compares⟩ := compares
  obtain ⟨otherBound, others⟩ := others
  -- Two names bound to the values are expressions that give them.
  let scope : Scope := [("left", left), ("right", right)]
  let depth := bound + otherBound + 1
  have givesLeft : Gives (ofExpr depth .empty ((Site.mk [] []).step 0) ⟨[], []⟩ scope
      (.identifier ⟨0, 0⟩ "left")) .start left .start := gives_identifier rfl
  have givesRight : Gives (ofExpr depth .empty ((Site.mk [] []).step 1) ⟨[], []⟩ scope
      (.identifier ⟨0, 0⟩ "right")) .start right .start := gives_identifier rfl
  obtain ⟨first, _⟩ := compares depth (by omega) _ _ _ _ ⟨0, 0⟩ _ _ _ _ _ givesLeft givesRight
  obtain ⟨second, _⟩ := others depth (by omega) _ _ _ _ ⟨0, 0⟩ _ _ _ _ _ givesLeft givesRight
  unfold Gives at first second
  rw [first] at second
  cases second
  rfl

theorem compares_true_iff {left right : Value} (isLeft : IsData left) (isRight : IsData right) :
    Compares true left right ↔
      left.typeName = right.typeName ∧ SameStructure left.counted right.counted := by
  obtain ⟨answer, compares, holds⟩ := exists_compares isLeft isRight
  rw [← holds]
  constructor
  · exact fun others => compares.unique others
  · rintro rfl
    exact compares

/-- What comparisons of data come to.

Expressions that give the data are equal if the types of the data are the same and so is their
structure with true counted as one and false as zero, and they are unequal otherwise.  That is whether
they have the same structure, unless inside of data of one type that differ in nothing else a boolean
of one meets a number of the other.  To be equal is an equivalence of data. -/
theorem comparison_of_data {left right : Value} (isLeft : IsData left) (isRight : IsData right) :
    (∃ answer, Compares answer left right ∧
      (answer = true ↔
        left.typeName = right.typeName ∧ SameStructure left.counted right.counted) ∧
      ((answer = true ↔ SameStructure left right) ↔
        ¬(left.typeName = right.typeName ∧ SameStructure left.counted right.counted ∧
          Clash left right))) ∧
    Equivalence fun first second : { value : Value // IsData value } =>
      Compares true first.1 second.1 := by
  refine ⟨?_, ?_, ?_, ?_⟩
  · obtain ⟨answer, compares, holds⟩ := exists_compares isLeft isRight
    refine ⟨answer, compares, holds, ?_⟩
    rw [holds, Value.sameStructure_iff isLeft isRight]
    have sameType : SameStructure left.counted right.counted → ¬Clash left right →
        left.typeName = right.typeName := fun same noClash =>
      ((Value.sameStructure_iff isLeft isRight).mpr ⟨same, noClash⟩).typeName_eq
    tauto
  · rintro ⟨value, isData⟩
    exact (compares_true_iff isData isData).mpr ⟨rfl, isData.counted.sameStructure⟩
  · rintro ⟨left, isLeft⟩ ⟨right, isRight⟩ equal
    obtain ⟨sameType, same⟩ := (compares_true_iff isLeft isRight).mp equal
    exact (compares_true_iff isRight isLeft).mpr ⟨sameType.symm, same.symm⟩
  · rintro ⟨first, isFirst⟩ ⟨second, isSecond⟩ ⟨third, isThird⟩ equal next
    obtain ⟨sameType, same⟩ := (compares_true_iff isFirst isSecond).mp equal
    obtain ⟨nextType, nextSame⟩ := (compares_true_iff isSecond isThird).mp next
    exact (compares_true_iff isFirst isThird).mpr
      ⟨sameType.trans nextType, same.trans nextSame⟩

theorem comparison_of_data_reordered :
    Compares true (.record [(.text "a", .array [.int 1]), (.text "b", .null)])
      (.record [(.text "b", .null), (.text "a", .array [.int 1])]) := by
  have item : IsData (.array [.int 1]) := .array (List.forall_mem_singleton.mpr (.atom (.int 1)))
  have isLeft : IsData (.record [(.text "a", .array [.int 1]), (.text "b", .null)]) :=
    .record (List.pairwise_pair.mpr rfl) (by simp [Value.IsAtom.text])
      (by simpa using ⟨item, .atom .null⟩)
  have isRight : IsData (.record [(.text "b", .null), (.text "a", .array [.int 1])]) :=
    .record (List.pairwise_pair.mpr rfl) (by simp [Value.IsAtom.text])
      (by simpa using ⟨.atom .null, item⟩)
  have differs : ("a" : Text) ≠ "b" := by decide
  have same : SameStructure (.record [(.text "a", .array [.int 1]), (.text "b", .null)])
      (.record [(.text "b", .null), (.text "a", .array [.int 1])]) := by
    refine .record (fun key => by simp [or_comm]) fun key left right foundLeft foundRight => ?_
    have sameValue : left = right := by
      simp only [List.mem_cons, Prod.mk.injEq, List.not_mem_nil, or_false] at foundLeft foundRight
      rcases foundLeft with ⟨rfl, rfl⟩ | ⟨rfl, rfl⟩ <;>
        simpa [differs, differs.symm, eq_comm] using foundRight
    rcases foundLeft with _ | ⟨_, _ | ⟨_, ⟨⟩⟩⟩
    · exact sameValue ▸ item.sameStructure
    · exact sameValue ▸ .atom .null
  obtain ⟨⟨answer, compares, holds, _⟩, _⟩ := comparison_of_data isLeft isRight
  have isTrue : answer = true := holds.mpr ⟨rfl, same.counted isLeft isRight⟩
  rw [isTrue] at compares
  exact compares

/-- In an array true is equal to one. -/
theorem equal_in_arrays :
    Compares true (.array [.int 1]) (.array [.bool true]) ∧
      ¬SameStructure (.array [.int 1]) (.array [.bool true]) := by
  have isLeft : IsData (.array [.int 1]) :=
    .array (List.forall_mem_singleton.mpr (.atom (.int 1)))
  have isRight : IsData (.array [.bool true]) :=
    .array (List.forall_mem_singleton.mpr (.atom (.bool true)))
  constructor
  · rw [compares_true_iff isLeft isRight]
    refine ⟨rfl, ?_⟩
    simpa only [Value.counted, Value.countedItems, if_true] using isLeft.sameStructure
  · intro same
    cases (Value.sameStructure_array_iff.mp same).2 0 _ _ rfl rfl

end Evaluation

end ConfigGraph
