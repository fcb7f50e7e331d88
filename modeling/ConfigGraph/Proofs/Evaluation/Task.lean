import ConfigGraph.Proofs.Evaluation.Outcome
import Mathlib.Logic.Relation

/-!
# Which evaluations an evaluation comes to

A task is an expression with all that its evaluation depends on.  `Task.Starts` says which tasks a
task starts, each in the session in which that happens.  No failure is caught, so a failure of a
task that is started is one of the whole.  An operator that fails without an error to report
`Commits` a fault, and every such fault of an evaluation is committed by a task that it comes to.
-/

namespace ConfigGraph

/-- A difference fails just when one of its operands is no number, or in arithmetic. -/
theorem BinaryOperator.apply_subtract_eq_mismatch {depth : Nat} {origin : Origin}
    {left right : Value} :
    BinaryOperator.subtract.apply depth origin left right = .error .mismatch ↔
      left.number? = none ∨ right.number? = none := by
  unfold apply applyArithmetic
  cases left.number? with
  | none => simp
  | some leftNumber =>
      cases right.number? with
      | none => simp
      | some rightNumber => cases result : Number.subtract leftNumber rightNumber <;> simp [result]

namespace Evaluation

variable {α β : Type}

/-! ## Tasks -/

/-- An expression and all that its evaluation in a store depends on. -/
structure Task where
  depth : Nat
  site : Site
  source : Source
  scope : Scope
  expr : Expr
  session : Session

/-- In a store a task fails. -/
def Task.Fails (store : Store) (task : Task) (failure : Failure) : Prop :=
  Evaluation.Fails (ofExpr task.depth store task.site task.source task.scope task.expr) task.session
    failure

section

variable (store : Store) (depth : Nat) (site : Site) (source : Source) (scope : Scope)
  (session : Session)

/-- The tasks that the evaluation of an expression starts. -/
inductive Begins : Expr → Task → Prop where
  /-- A field of a record, after the ones before it, whose names are others. -/
  | field {span : Span} {fields : List (Span × Text × Expr)}
      {before behind : List ((Span × Text × Expr) × Nat)} {field : (Span × Text × Expr) × Nat}
      {known : Fields} {middle : Session} :
      fields.zipIdx = before ++ field :: behind →
      Gives (before.foldlM (recordStep depth store site source scope) []) session known middle →
      Fields.get? known (.text field.1.2.1) = none →
      Begins (.record span fields)
        ⟨depth, site.step field.2, source, scope, field.1.2.2, middle⟩
  | item {span : Span} {items : List Expr} {before behind : List (Expr × Nat)} {item : Expr × Nat}
      {values : List Value} {middle : Session} :
      items.zipIdx = before ++ item :: behind →
      Gives (before.mapM fun item => ofExpr depth store (site.step item.2) source scope item.1)
        session values middle →
      Begins (.array span items) ⟨depth, site.step item.2, source, scope, item.1, middle⟩
  /-- The document to which an import leads, unless its value is remembered or it is being
  evaluated. -/
  | target {span : Span} {path target : Text} {document : Document} {tree : Expr} :
      store.target? ⟨source.path, some span⟩ = some target →
      session.value? target = none →
      store.find? target = some document →
      target ∉ session.active →
      document.content = .expr tree →
      Begins (.importOf span path)
        ⟨depth, ⟨document.path, []⟩, document.source, [], tree, session.enter target⟩
  | letValue {span : Span} {name : Text} {value body : Expr} :
      Begins (.letIn span name value body) ⟨depth, site.step 0, source, scope, value, session⟩
  | letBody {span : Span} {name : Text} {value body : Expr} {given : Value} {middle : Session} :
      Gives (ofExpr depth store (site.step 0) source scope value) session given middle →
      Begins (.letIn span name value body)
        ⟨depth, site.step 1, source, (name, given) :: scope, body, middle⟩
  | condition {span : Span} {condition thenBranch elseBranch : Expr} :
      Begins (.conditional span condition thenBranch elseBranch)
        ⟨depth, site.step 0, source, scope, condition, session⟩
  | thenBranch {span : Span} {condition thenBranch elseBranch : Expr} {middle : Session} :
      Gives (ofExpr depth store (site.step 0) source scope condition) session (.bool true) middle →
      Begins (.conditional span condition thenBranch elseBranch)
        ⟨depth, site.step 1, source, scope, thenBranch, middle⟩
  | elseBranch {span : Span} {condition thenBranch elseBranch : Expr} {middle : Session} :
      Gives (ofExpr depth store (site.step 0) source scope condition) session (.bool false) middle →
      Begins (.conditional span condition thenBranch elseBranch)
        ⟨depth, site.step 2, source, scope, elseBranch, middle⟩
  | left {span : Span} {operator : BinaryOperator} {left right : Expr} :
      Begins (.binary span operator left right)
        ⟨depth, site.step 0, source, scope, left, session⟩
  /-- The right operand of an operator that needs it, whatever the left one is. -/
  | right {span : Span} {operator : BinaryOperator} {left right : Expr} {given : Value}
      {middle : Session} :
      isLogical operator = false →
      Gives (ofExpr depth store (site.step 0) source scope left) session given middle →
      Begins (.binary span operator left right) ⟨depth, site.step 1, source, scope, right, middle⟩
  | conjunctionRight {span : Span} {left right : Expr} {middle : Session} :
      Gives (ofExpr depth store (site.step 0) source scope left) session (.bool true) middle →
      Begins (.binary span .conjunction left right)
        ⟨depth, site.step 1, source, scope, right, middle⟩
  | disjunctionRight {span : Span} {left right : Expr} {middle : Session} :
      Gives (ofExpr depth store (site.step 0) source scope left) session (.bool false) middle →
      Begins (.binary span .disjunction left right)
        ⟨depth, site.step 1, source, scope, right, middle⟩
  | operand {span : Span} {operator : UnaryOperator} {operand : Expr} :
      Begins (.unary span operator operand) ⟨depth, site.step 0, source, scope, operand, session⟩
  | accessTarget {span : Span} {target : Expr} {field : Text} :
      Begins (.access span target field) ⟨depth, site.step 0, source, scope, target, session⟩
  | callee {span : Span} {callee : Expr} {arguments : List Expr} :
      Begins (.call span callee arguments) ⟨depth, site.step 0, source, scope, callee, session⟩
  /-- An argument of a function that takes as many. -/
  | argument {span : Span} {callee : Expr} {arguments : List Expr} {origin : Origin}
      {parameters : List Text} {body : Expr} {closure : Scope} {home : Source}
      {before behind : List (Expr × Nat)} {argument : Expr × Nat} {values : List Value}
      {middle last : Session} :
      Gives (ofExpr depth store (site.step 0) source scope callee) session
        (.function origin parameters body closure home) middle →
      arguments.length = parameters.length →
      arguments.zipIdx = before ++ argument :: behind →
      Gives (before.mapM fun argument =>
        ofExpr depth store (site.step (argument.2 + 2)) source scope argument.1)
        middle values last →
      Begins (.call span callee arguments)
        ⟨depth, site.step (argument.2 + 2), source, scope, argument.1, last⟩
  /-- The body of a function, in the document that it stands in. -/
  | body {span : Span} {callee : Expr} {arguments : List Expr} {origin : Origin}
      {parameters : List Text} {body : Expr} {closure : Scope} {home : Source}
      {values : List Value} {middle last : Session} :
      Gives (ofExpr depth store (site.step 0) source scope callee) session
        (.function origin parameters body closure home) middle →
      arguments.length = parameters.length →
      Gives (arguments.zipIdx.mapM fun argument =>
        ofExpr depth store (site.step (argument.2 + 2)) source scope argument.1)
        middle values last →
      Begins (.call span callee arguments)
        ⟨depth, site.step 1, home, bind parameters values closure, body, last⟩

/-- The faults that an operator commits on the values of its operands. -/
inductive Commits : Expr → Fault → Prop where
  /-- A difference of values of which one is no number. -/
  | difference {span : Span} {left right : Expr} {leftValue rightValue : Value}
      {middle last : Session} :
      Gives (ofExpr depth store (site.step 0) source scope left) session leftValue middle →
      Gives (ofExpr depth store (site.step 1) source scope right) middle rightValue last →
      leftValue.number? = none ∨ rightValue.number? = none →
      Commits (.binary span .subtract left right) (.operatorWithoutSymbol .subtract)
  /-- Arithmetic that leaves the range of floats. -/
  | overflow {span : Span} {operator : BinaryOperator} {left right : Expr}
      {leftValue rightValue : Value} {middle last : Session} {overflow : Number.Overflow} :
      isLogical operator = false →
      Gives (ofExpr depth store (site.step 0) source scope left) session leftValue middle →
      Gives (ofExpr depth store (site.step 1) source scope right) middle rightValue last →
      operator.apply depth site.origin leftValue rightValue = .error (.overflow overflow) →
      Commits (.binary span operator left right) (.overflow overflow)

end

/-! ## One step -/

section

variable {store : Store} {depth : Nat} {site : Site} {source : Source} {scope : Scope}
  {session : Session}

theorem Begins.depth_eq {expr : Expr} {other : Task}
    (begins : Begins store depth site source scope session expr other) : other.depth = depth := by
  cases begins <;> rfl

/-- A fault of a task that is started is one of the whole. -/
theorem Begins.fails {expr : Expr} {other : Task}
    (begins : Begins store depth site source scope session expr other) {fault : Fault}
    (failed : other.Fails store (.fault fault)) :
    Fails (ofExpr (depth + 1) store site source scope expr) session (.fault fault) := by
  cases begins with
  | @field _ _ _ _ field known _ isSplit given isNew =>
      rw [ofExpr_record, fails_bind, fails_foldlM]
      refine .inl ⟨_, _, _, _, _, isSplit, given, ?_⟩
      have new : ¬(Fields.get? known (.text field.1.2.1)).isSome = true := by simp [isNew]
      unfold recordStep
      rw [if_neg new, fails_bind]
      exact .inl failed
  | item isSplit given =>
      rw [ofExpr_array, fails_bind, fails_mapM]
      exact .inl ⟨_, _, _, _, _, isSplit, given, failed⟩
  | target isTarget notRemembered found inactive isTree =>
      rw [ofExpr_importOf, Store.target, isTarget]
      refine fails_ofDocument.mpr ⟨notRemembered, .inr ⟨_, found, inactive, ?_⟩⟩
      rw [isTree]
      exact failed
  | letValue =>
      rw [ofExpr_letIn, fails_bind]
      exact .inl failed
  | letBody given =>
      rw [ofExpr_letIn, fails_bind]
      exact .inr ⟨_, _, given, failed⟩
  | condition =>
      rw [ofExpr_conditional, fails_bind]
      exact .inl failed
  | thenBranch given | elseBranch given =>
      rw [ofExpr_conditional, fails_bind]
      exact .inr ⟨_, _, given, failed⟩
  | @left _ operator _ _ =>
      -- The left operand comes first whether or not the right one is needed.
      by_cases eager : isLogical operator = false
      · rw [ofExpr_binary _ _ _ _ _ _ eager, fails_bind]
        exact .inl failed
      · cases operator with
        | conjunction =>
            rw [ofExpr_conjunction, fails_bind, truth, fails_bind]
            exact .inl (.inl failed)
        | disjunction =>
            rw [ofExpr_disjunction, fails_bind, truth, fails_bind]
            exact .inl (.inl failed)
        | add | subtract | multiply | divide | modulo | concat | merge | equal | notEqual | less
        | lessOrEqual | greater | greaterOrEqual => exact absurd rfl eager
  | right eager given =>
      rw [ofExpr_binary _ _ _ _ _ _ eager, fails_bind]
      refine .inr ⟨_, _, given, ?_⟩
      rw [fails_bind]
      exact .inl failed
  | conjunctionRight given =>
      rw [ofExpr_conjunction, fails_bind]
      refine .inr ⟨true, _, gives_bind.mpr ⟨_, _, given, rfl⟩, ?_⟩
      rw [if_pos rfl, fails_bind, truth, fails_bind]
      exact .inl (.inl failed)
  | disjunctionRight given =>
      rw [ofExpr_disjunction, fails_bind]
      refine .inr ⟨false, _, gives_bind.mpr ⟨_, _, given, rfl⟩, ?_⟩
      rw [if_neg Bool.false_ne_true, fails_bind, truth, fails_bind]
      exact .inl (.inl failed)
  | operand =>
      rw [ofExpr_unary, fails_bind]
      exact .inl failed
  | accessTarget =>
      rw [ofExpr_access, fails_bind]
      exact .inl failed
  | callee =>
      rw [ofExpr_call, fails_bind]
      exact .inl failed
  | argument given sameLength isSplit values =>
      rw [ofExpr_call, fails_bind]
      refine .inr ⟨_, _, given, ?_⟩
      rw [applyCall, if_neg (by simpa using sameLength), fails_bind, fails_mapM]
      exact .inl ⟨_, _, _, _, _, isSplit, values, failed⟩
  | body given sameLength values =>
      rw [ofExpr_call, fails_bind]
      refine .inr ⟨_, _, given, ?_⟩
      rw [applyCall, if_neg (by simpa using sameLength), fails_bind]
      exact .inr ⟨_, _, values, failed⟩

/-- A task that commits a fault fails with it. -/
theorem Commits.fails {expr : Expr} {fault : Fault}
    (commits : Commits store depth site source scope session expr fault) :
    Fails (ofExpr (depth + 1) store site source scope expr) session (.fault fault) := by
  have operands {span : Span} {operator : BinaryOperator} {left right : Expr}
      {leftValue rightValue : Value} {middle last : Session}
      (eager : isLogical operator = false)
      (isLeft : Gives (ofExpr depth store (site.step 0) source scope left) session leftValue middle)
      (isRight : Gives (ofExpr depth store (site.step 1) source scope right) middle rightValue last)
      (applied : Fails (applyOperator depth site source span operator leftValue rightValue) last
        (.fault fault)) :
      Fails (ofExpr (depth + 1) store site source scope (.binary span operator left right)) session
        (.fault fault) := by
    rw [ofExpr_binary _ _ _ _ _ _ eager, fails_bind]
    refine .inr ⟨_, _, isLeft, ?_⟩
    rw [fails_bind]
    exact .inr ⟨_, _, isRight, applied⟩
  cases commits with
  | @difference _ _ _ leftValue rightValue _ _ isLeft isRight noNumber =>
      refine operands rfl isLeft isRight ?_
      have mismatch : BinaryOperator.subtract.apply depth site.origin leftValue rightValue =
          .error .mismatch := BinaryOperator.apply_subtract_eq_mismatch.mpr noNumber
      unfold applyOperator
      rw [mismatch]
      rfl
  | overflow eager isLeft isRight overflows =>
      refine operands eager isLeft isRight ?_
      unfold applyOperator
      rw [overflows]
      rfl

/-- The faults that operators commit. -/
inductive OfOperator : Fault → Prop where
  | symbol {operator : BinaryOperator} : OfOperator (.operatorWithoutSymbol operator)
  | overflow {overflow : Number.Overflow} : OfOperator (.overflow overflow)

theorem OfOperator.not_fails_fail {fault : Fault} (ofOperator : OfOperator fault) {source : Source}
    {span : Span} {code : ErrorCode} {details : Details} {session : Session} :
    ¬Fails (fail source span code details : Evaluation α) session (.fault fault) := by
  intro fails
  unfold fail at fails
  split at fails
  · cases fails
  · cases fails
    cases ofOperator

/-- An operand of a logical operator gives what it is. -/
theorem gives_truth {operator : BinaryOperator} {operand : Expr} {holds : Bool} {after : Session}
    (gives : Gives (truth depth store source scope site operator operand) session holds after) :
    Gives (ofExpr depth store site source scope operand) session (.bool holds) after := by
  obtain ⟨value, middle, isValue, isTruth⟩ := gives_bind.mp gives
  unfold logicalOperand at isTruth
  split at isTruth
  · obtain ⟨rfl, rfl⟩ := gives_pure.mp isTruth
    exact isValue
  · exact absurd isTruth not_gives_fail

theorem fails_truth {operator : BinaryOperator} {operand : Expr} {fault : Fault}
    (ofOperator : OfOperator fault)
    (fails : Fails (truth depth store source scope site operator operand) session (.fault fault)) :
    Fails (ofExpr depth store site source scope operand) session (.fault fault) := by
  rcases fails_bind.mp fails with failed | ⟨value, middle, _, failed⟩
  · exact failed
  · unfold logicalOperand at failed
    split at failed
    · exact absurd failed not_fails_pure
    · exact absurd failed ofOperator.not_fails_fail

/-- An operator that fails with a fault is out of range, or a difference of values of which one is
no number. -/
theorem of_fails_applyOperator {span : Span} {operator : BinaryOperator} {left right : Value}
    {fault : Fault} (ofOperator : OfOperator fault)
    (fails : Fails (applyOperator depth site source span operator left right) session
      (.fault fault)) :
    (∃ overflow, operator.apply depth site.origin left right = .error (.overflow overflow) ∧
      fault = .overflow overflow) ∨
    (operator = .subtract ∧ (left.number? = none ∨ right.number? = none) ∧
      fault = .operatorWithoutSymbol .subtract) := by
  unfold applyOperator at fails
  split at fails
  case h_1 => exact absurd fails not_fails_pure
  case h_2 operatorFault applied =>
    cases operatorFault with
    | unending =>
        cases fails
        cases ofOperator
    | overflow overflow =>
        cases fails
        exact .inl ⟨overflow, applied, rfl⟩
    | divisionByZero => exact absurd fails ofOperator.not_fails_fail
    | mismatch =>
        cases operator with
        | subtract =>
            cases fails
            exact .inr ⟨rfl, BinaryOperator.apply_subtract_eq_mismatch.mp applied, rfl⟩
        | add | multiply | divide | modulo | concat | merge | conjunction | disjunction | equal
        | notEqual | less | lessOrEqual | greater | greaterOrEqual =>
            exact absurd fails ofOperator.not_fails_fail

/-- A fault that an expression commits, or with which a task that it starts fails. -/
def Arises (store : Store) (depth : Nat) (site : Site) (source : Source) (scope : Scope)
    (session : Session) (expr : Expr) (fault : Fault) : Prop :=
  Commits store depth site source scope session expr fault ∨
    ∃ other, Begins store depth site source scope session expr other ∧
      other.Fails store (.fault fault)

theorem arises_record {span : Span} {fields : List (Span × Text × Expr)} {fault : Fault}
    (ofOperator : OfOperator fault)
    (fails : Fails (ofExpr (depth + 1) store site source scope (.record span fields)) session
      (.fault fault)) :
    Arises store depth site source scope session (.record span fields) fault := by
  rw [ofExpr_record, fails_bind] at fails
  rcases fails with fails | ⟨known, after, _, never⟩
  · obtain ⟨before, field, behind, known, middle, isSplit, given, failed⟩ := fails_foldlM.mp fails
    unfold recordStep at failed
    split at failed
    · rw [fails_bind] at failed
      rcases failed with duplicate | ⟨_, _, given, _⟩
      · exact absurd duplicate ofOperator.not_fails_fail
      · exact absurd given not_gives_fail
    · rename_i isNew
      rw [fails_bind] at failed
      rcases failed with failed | ⟨_, _, _, never⟩
      · refine .inr ⟨_, .field isSplit given ?_, failed⟩
        simpa using isNew
      · exact absurd never not_fails_pure
  · exact absurd never not_fails_pure

theorem arises_importOf {span : Span} {path : Text} {fault : Fault}
    (ofOperator : OfOperator fault)
    (fails : Fails (ofExpr (depth + 1) store site source scope (.importOf span path)) session
      (.fault fault)) :
    Arises store depth site source scope session (.importOf span path) fault := by
  rw [ofExpr_importOf] at fails
  unfold Store.target at fails
  split at fails
  case h_1 target isTarget =>
    have looked : Fails (ofTarget depth store target) session (.fault fault) := fails
    obtain ⟨notRemembered, ⟨_, rfl⟩ | ⟨document, found, inactive, failed⟩⟩ :=
      fails_ofDocument.mp looked
    · cases ofOperator
    · cases isContent : document.content with
      | data value =>
          rw [isContent] at failed
          exact absurd failed not_fails_pure
      | expr tree =>
          rw [isContent] at failed
          exact .inr ⟨_, .target isTarget notRemembered found inactive isContent, failed⟩
  case h_2 =>
    cases fails
    cases ofOperator

theorem arises_conjunction {span : Span} {left right : Expr} {fault : Fault}
    (ofOperator : OfOperator fault)
    (fails : Fails (ofExpr (depth + 1) store site source scope
      (.binary span .conjunction left right)) session (.fault fault)) :
    Arises store depth site source scope session (.binary span .conjunction left right) fault := by
  rw [ofExpr_conjunction, fails_bind] at fails
  rcases fails with failed | ⟨holds, middle, isLeft, fails⟩
  · exact .inr ⟨_, .left, fails_truth ofOperator failed⟩
  · cases holds with
    | false => exact absurd fails not_fails_pure
    | true =>
        rcases fails_bind.mp fails with failed | ⟨_, _, _, never⟩
        · exact .inr ⟨_, .conjunctionRight (gives_truth isLeft), fails_truth ofOperator failed⟩
        · exact absurd never not_fails_pure

theorem arises_disjunction {span : Span} {left right : Expr} {fault : Fault}
    (ofOperator : OfOperator fault)
    (fails : Fails (ofExpr (depth + 1) store site source scope
      (.binary span .disjunction left right)) session (.fault fault)) :
    Arises store depth site source scope session (.binary span .disjunction left right) fault := by
  rw [ofExpr_disjunction, fails_bind] at fails
  rcases fails with failed | ⟨holds, middle, isLeft, fails⟩
  · exact .inr ⟨_, .left, fails_truth ofOperator failed⟩
  · cases holds with
    | true => exact absurd fails not_fails_pure
    | false =>
        rcases fails_bind.mp fails with failed | ⟨_, _, _, never⟩
        · exact .inr ⟨_, .disjunctionRight (gives_truth isLeft), fails_truth ofOperator failed⟩
        · exact absurd never not_fails_pure

theorem arises_binary {span : Span} {operator : BinaryOperator} {left right : Expr} {fault : Fault}
    (ofOperator : OfOperator fault)
    (fails : Fails (ofExpr (depth + 1) store site source scope (.binary span operator left right))
      session (.fault fault)) :
    Arises store depth site source scope session (.binary span operator left right) fault := by
  by_cases eager : isLogical operator = false
  · rw [ofExpr_binary _ _ _ _ _ _ eager, fails_bind] at fails
    rcases fails with failed | ⟨leftValue, middle, isLeft, fails⟩
    · exact .inr ⟨_, .left, failed⟩
    · rcases fails_bind.mp fails with failed | ⟨rightValue, last, isRight, failed⟩
      · exact .inr ⟨_, .right eager isLeft, failed⟩
      · rcases of_fails_applyOperator ofOperator failed with
          ⟨overflow, applied, rfl⟩ | ⟨rfl, noNumber, rfl⟩
        · exact .inl (.overflow eager isLeft isRight applied)
        · exact .inl (.difference isLeft isRight noNumber)
  · cases operator with
    | conjunction => exact arises_conjunction ofOperator fails
    | disjunction => exact arises_disjunction ofOperator fails
    | add | subtract | multiply | divide | modulo | concat | merge | equal | notEqual | less
    | lessOrEqual | greater | greaterOrEqual => exact absurd rfl eager

theorem arises_call {span : Span} {callee : Expr} {arguments : List Expr} {fault : Fault}
    (ofOperator : OfOperator fault)
    (fails : Fails (ofExpr (depth + 1) store site source scope (.call span callee arguments))
      session (.fault fault)) :
    Arises store depth site source scope session (.call span callee arguments) fault := by
  rw [ofExpr_call, fails_bind] at fails
  rcases fails with failed | ⟨given, middle, isGiven, failed⟩
  · exact .inr ⟨_, .callee, failed⟩
  · unfold applyCall at failed
    split at failed
    · split at failed
      · exact absurd failed ofOperator.not_fails_fail
      · rename_i sameLength
        rw [Decidable.not_not] at sameLength
        rw [fails_bind] at failed
        rcases failed with failed | ⟨values, last, areValues, failed⟩
        · obtain ⟨before, argument, behind, values, last, isSplit, areValues, failed⟩ :=
            fails_mapM.mp failed
          exact .inr ⟨_, .argument isGiven sameLength isSplit areValues, failed⟩
        · exact .inr ⟨_, .body isGiven sameLength areValues, failed⟩
    · exact absurd failed ofOperator.not_fails_fail

/-- An expression that fails with a fault of an operator commits it or starts a task that fails with
it. -/
theorem arises_of_fails {expr : Expr} {fault : Fault} (ofOperator : OfOperator fault)
    (fails : Fails (ofExpr (depth + 1) store site source scope expr) session (.fault fault)) :
    Arises store depth site source scope session expr fault := by
  cases expr with
  | number span value => exact absurd fails not_fails_pure
  | string span value => exact absurd fails not_fails_pure
  | boolean span value => exact absurd fails not_fails_pure
  | null span => exact absurd fails not_fails_pure
  | function span parameters body => exact absurd fails not_fails_pure
  | identifier span name =>
      have looked : Fails (lookup source span scope name) session (.fault fault) := fails
      unfold lookup at looked
      split at looked
      · exact absurd looked not_fails_pure
      · exact absurd looked ofOperator.not_fails_fail
  | record span fields => exact arises_record ofOperator fails
  | array span items =>
      rw [ofExpr_array, fails_bind] at fails
      rcases fails with fails | ⟨_, _, _, never⟩
      · obtain ⟨before, item, behind, values, middle, isSplit, given, failed⟩ := fails_mapM.mp fails
        exact .inr ⟨_, .item isSplit given, failed⟩
      · exact absurd never not_fails_pure
  | importOf span path => exact arises_importOf ofOperator fails
  | letIn span name value body =>
      rw [ofExpr_letIn, fails_bind] at fails
      rcases fails with failed | ⟨given, middle, isGiven, failed⟩
      · exact .inr ⟨_, .letValue, failed⟩
      · exact .inr ⟨_, .letBody isGiven, failed⟩
  | conditional span condition thenBranch elseBranch =>
      rw [ofExpr_conditional, fails_bind] at fails
      rcases fails with failed | ⟨given, middle, isGiven, failed⟩
      · exact .inr ⟨_, .condition, failed⟩
      · unfold applyCondition at failed
        split at failed
        · exact .inr ⟨_, .thenBranch isGiven, failed⟩
        · exact .inr ⟨_, .elseBranch isGiven, failed⟩
        · exact absurd failed ofOperator.not_fails_fail
  | binary span operator left right => exact arises_binary ofOperator fails
  | unary span operator operand =>
      rw [ofExpr_unary, fails_bind] at fails
      rcases fails with failed | ⟨given, middle, _, failed⟩
      · exact .inr ⟨_, .operand, failed⟩
      · unfold applyUnary at failed
        split at failed
        · exact absurd failed not_fails_pure
        · exact absurd failed ofOperator.not_fails_fail
  | access span target field =>
      rw [ofExpr_access, fails_bind] at fails
      rcases fails with failed | ⟨given, middle, _, failed⟩
      · exact .inr ⟨_, .accessTarget, failed⟩
      · unfold access at failed
        split at failed
        · exact absurd failed ofOperator.not_fails_fail
        · split at failed
          · exact absurd failed not_fails_pure
          · exact absurd failed ofOperator.not_fails_fail
  | call span callee arguments => exact arises_call ofOperator fails

end

/-- One task starts another one. -/
def Task.Starts (store : Store) (task other : Task) : Prop :=
  ∃ depth, task.depth = depth + 1 ∧
    Begins store depth task.site task.source task.scope task.session task.expr other

/-- A task commits a fault. -/
def Task.Commits (store : Store) (task : Task) (fault : Fault) : Prop :=
  ∃ depth, task.depth = depth + 1 ∧
    Evaluation.Commits store depth task.site task.source task.scope task.session task.expr fault

/-- A task fails with a fault of an operator just when it comes to a task that commits the fault. -/
theorem Task.fails_iff {store : Store} {task : Task} {fault : Fault}
    (ofOperator : OfOperator fault) :
    task.Fails store (.fault fault) ↔
      ∃ last, Relation.ReflTransGen (Task.Starts store) task last ∧ last.Commits store fault := by
  constructor
  · intro fails
    obtain ⟨depth, site, source, scope, expr, session⟩ := task
    -- A task that is started has one level less.
    induction depth generalizing site source scope expr session with
    | zero =>
        cases fails
        cases ofOperator
    | succ depth induction =>
        rcases arises_of_fails ofOperator fails with commits | ⟨other, begins, failed⟩
        · exact ⟨_, .refl, depth, rfl, commits⟩
        · have sameDepth := begins.depth_eq
          obtain ⟨_, otherSite, otherSource, otherScope, otherExpr, otherSession⟩ := other
          subst sameDepth
          obtain ⟨last, reaches, commits⟩ :=
            induction otherSite otherSource otherScope otherExpr otherSession failed
          exact ⟨last, .head ⟨_, rfl, begins⟩ reaches, commits⟩
  · rintro ⟨last, reaches, depth, isDepth, commits⟩
    -- From the task that commits the fault back to the first one.
    have atLast : last.Fails store (.fault fault) := by
      unfold Task.Fails
      rw [isDepth]
      exact commits.fails
    clear commits isDepth
    induction reaches using Relation.ReflTransGen.head_induction_on with
    | refl => exact atLast
    | head starts _ induction =>
        obtain ⟨depth, isDepth, begins⟩ := starts
        unfold Task.Fails
        rw [isDepth]
        exact begins.fails induction

end Evaluation

end ConfigGraph
