import ConfigGraph.Evaluation
import ConfigGraph.Proofs.Sequence

/-!
# Performing parts of an evaluation

What the building blocks of an evaluation come to in a session, and the evaluation of each kind of
expression by that of its parts.
-/

namespace ConfigGraph.Evaluation

variable {α β : Type}

/-! ## Performing parts -/

theorem perform_bind (part : Evaluation α) (next : α → Evaluation β) (session : Session) :
    perform (part >>= next) session =
      match perform part session with
      | (.ok value, after) => perform (next value) after
      | (.error failure, after) => (.error failure, after) := by
  have same : perform (part >>= next) session = continueWith next (perform part session) :=
    bind_stateful part next session
  rw [same]
  rcases perform part session with ⟨_ | _, after⟩ <;> rfl

@[simp] theorem perform_pure (value : α) (session : Session) :
    perform (pure value : Evaluation α) session = (.ok value, session) := rfl

@[simp] theorem perform_throw (failure : Failure) (session : Session) :
    perform (throw failure : Evaluation α) session = (.error failure, session) := rfl

@[simp] theorem perform_get (session : Session) :
    perform (get : Evaluation Session) session = (.ok session, session) := rfl

theorem perform_within (path : Text) (body : Evaluation Value) (session : Session) :
    perform (within path body) session =
      match perform body (session.enter path) with
      | (.ok value, after) => (.ok value, (after.leave path).remember path value)
      | (.error failure, after) => (.error failure, after.leave path) := rfl

/-! ## Expressions -/

section

variable (depth : Nat) (store : Store) (site : Site) (source : Source) (scope : Scope) (span : Span)

/-- One field of a record, after those that are known. -/
def recordStep (known : Fields) (field : (Span × Text × Expr) × Nat) : Evaluation Fields := do
  if (Fields.get? known (.text field.1.2.1)).isSome then
    failWith source field.1.1 .duplicateField [("name", field.1.2.1)]
  let value ← ofExpr depth store (site.step field.2) source scope field.1.2.2
  return known ++ [(.text field.1.2.1, value)]

/-- A document to which an import leads. -/
def ofTarget (target : Text) : Evaluation Value :=
  ofDocument store (fun document expr =>
    ofExpr depth store ⟨document.path, []⟩ document.source [] expr) target

theorem ofExpr_record (fields : List (Span × Text × Expr)) :
    ofExpr (depth + 1) store site source scope (.record span fields) =
      fields.zipIdx.foldlM (recordStep depth store site source scope) [] >>= fun fields =>
        pure (.record fields) := rfl

theorem ofExpr_array (items : List Expr) :
    ofExpr (depth + 1) store site source scope (.array span items) =
      items.zipIdx.mapM (fun item =>
        ofExpr depth store (site.step item.2) source scope item.1) >>= fun items =>
          pure (.array items) := rfl

theorem ofExpr_importOf (path : Text) :
    ofExpr (depth + 1) store site source scope (.importOf span path) =
      liftInternal (store.target ⟨source.path, some span⟩) >>= ofTarget depth store := rfl

/-- The truth value of an expression that is an operand of a logical operator. -/
def truth (site : Site) (operator : BinaryOperator) (operand : Expr) : Evaluation Bool :=
  ofExpr depth store site source scope operand >>= logicalOperand source operand.span operator

theorem ofExpr_conjunction (left right : Expr) :
    ofExpr (depth + 1) store site source scope (.binary span .conjunction left right) =
      truth depth store source scope (site.step 0) .conjunction left >>= fun holds =>
        if holds then
          truth depth store source scope (site.step 1) .conjunction right >>= fun holds =>
            pure (.bool holds)
        else pure (.bool false) := by
  simp only [ofExpr, truth, bind_assoc]

theorem ofExpr_disjunction (left right : Expr) :
    ofExpr (depth + 1) store site source scope (.binary span .disjunction left right) =
      truth depth store source scope (site.step 0) .disjunction left >>= fun holds =>
        if holds then pure (.bool true)
        else
          truth depth store source scope (site.step 1) .disjunction right >>= fun holds =>
            pure (.bool holds) := by
  simp only [ofExpr, truth, bind_assoc]

/-- The value of an operator on two values, or its failure. -/
def applyOperator (operator : BinaryOperator) (left right : Value) : Evaluation Value :=
  match operator.apply depth site.origin left right with
  | .ok value => return value
  | .error fault => failOperator source span operator left right fault

/-- Whether an operator decides if its right operand is evaluated. -/
def isLogical (operator : BinaryOperator) : Bool :=
  operator = .conjunction ∨ operator = .disjunction

theorem ofExpr_binary {operator : BinaryOperator} (eager : isLogical operator = false)
    (left right : Expr) :
    ofExpr (depth + 1) store site source scope (.binary span operator left right) =
      ofExpr depth store (site.step 0) source scope left >>= fun leftValue =>
        ofExpr depth store (site.step 1) source scope right >>= fun rightValue =>
          applyOperator depth site source span operator leftValue rightValue := by
  cases operator with
  | conjunction | disjunction => cases eager
  | add | subtract | multiply | divide | modulo | concat | merge | equal | notEqual | less
  | lessOrEqual | greater | greaterOrEqual => rfl

/-- The value of an operator on one value, or its failure. -/
def applyUnary (operator : UnaryOperator) (operand : Value) : Evaluation Value :=
  match operator.value? site.origin operand with
  | some value => return value
  | none =>
      failWith source span .unaryTypeMismatch
        [("op", operator.symbol), ("provided", operand.typeName)]

theorem ofExpr_unary (operator : UnaryOperator) (operand : Expr) :
    ofExpr (depth + 1) store site source scope (.unary span operator operand) =
      ofExpr depth store (site.step 0) source scope operand >>=
        applyUnary site source span operator := rfl

/-- The call of a value with arguments. -/
def applyCall (arguments : List Expr) : Value → Evaluation Value
  | .function _ parameters body closure home =>
      if arguments.length ≠ parameters.length then
        fail source span .argumentCountMismatch
          [("expected", .int parameters.length), ("provided", .int arguments.length)]
      else do
        let values ← arguments.zipIdx.mapM fun argument =>
          ofExpr depth store (site.step (argument.2 + 2)) source scope argument.1
        ofExpr depth store (site.step 1) home (bind parameters values closure) body
  | other => failWith source span .notAFunction [("provided", other.typeName)]

theorem ofExpr_call (callee : Expr) (arguments : List Expr) :
    ofExpr (depth + 1) store site source scope (.call span callee arguments) =
      ofExpr depth store (site.step 0) source scope callee >>=
        applyCall depth store site source scope span arguments := rfl

/-- The branch that a condition chooses. -/
def applyCondition (condition thenBranch elseBranch : Expr) : Value → Evaluation Value
  | .bool true => ofExpr depth store (site.step 1) source scope thenBranch
  | .bool false => ofExpr depth store (site.step 2) source scope elseBranch
  | other => failWith source condition.span .conditionNotBoolean [("provided", other.typeName)]

theorem ofExpr_conditional (condition thenBranch elseBranch : Expr) :
    ofExpr (depth + 1) store site source scope (.conditional span condition thenBranch elseBranch) =
      ofExpr depth store (site.step 0) source scope condition >>=
        applyCondition depth store site source scope condition thenBranch elseBranch := rfl

theorem ofExpr_letIn (name : Text) (value body : Expr) :
    ofExpr (depth + 1) store site source scope (.letIn span name value body) =
      ofExpr depth store (site.step 0) source scope value >>= fun given =>
        ofExpr depth store (site.step 1) source ((name, given) :: scope) body := rfl

theorem ofExpr_access (target : Expr) (field : Text) :
    ofExpr (depth + 1) store site source scope (.access span target field) =
      ofExpr depth store (site.step 0) source scope target >>= fun given =>
        access source span given field := rfl

end

end ConfigGraph.Evaluation
