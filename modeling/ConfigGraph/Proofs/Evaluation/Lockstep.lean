import ConfigGraph.Proofs.Evaluation.Closed
import ConfigGraph.Proofs.Value.Akin

/-!
# Evaluations in lockstep

Two evaluations of one expression, in scopes that agree on its free names, go through the same
steps: they need the same documents at the same moments, leave the same session behind, and come to
the same failure or to values that are akin (`inStep_ofExpr`).  What they come to may differ where
functions keep what they cannot use, so the documents must not compare values, which would tell
functions apart by all that they keep.
-/

namespace ConfigGraph.Evaluation

variable {α β γ δ : Type} {documents : List Document} {marks : Origin → Origin → Prop}

/-! ## Parts in lockstep -/

/-- In every session with rooted values, two parts leave the same session behind, which is one with
rooted values, and come to the same failure or to related values. -/
def InStep (documents : List Document) (related : α → β → Prop) (part : Evaluation α)
    (other : Evaluation β) : Prop :=
  ∀ session, Remembers documents session →
    Remembers documents (perform part session).2 ∧
    (perform other session).2 = (perform part session).2 ∧
    InAccord related (perform part session).1 (perform other session).1

variable {related : α → β → Prop} {better : γ → δ → Prop} {part : Evaluation α}
  {other : Evaluation β}

theorem InStep.pure {value : α} {twin : β} (isRelated : related value twin) :
    InStep documents related (Pure.pure value) (Pure.pure twin) :=
  fun _ remembers => ⟨remembers, rfl, .value isRelated⟩

theorem InStep.throw {failure : Failure} :
    InStep documents related (MonadExcept.throw failure) (MonadExcept.throw failure) :=
  fun _ remembers => ⟨remembers, rfl, .failure failure⟩

theorem InStep.fail {source : Source} {span : Span} {code : ErrorCode} {details : Details} :
    InStep documents related (Evaluation.fail source span code details)
      (Evaluation.fail source span code details) := by
  rw [fail_eq_throw, fail_eq_throw]
  exact .throw

theorem InStep.bind {next : α → Evaluation γ} {otherNext : β → Evaluation δ}
    (first : InStep documents related part other)
    (second : ∀ value twin, related value twin →
      InStep documents better (next value) (otherNext twin)) :
    InStep documents better (part >>= next) (other >>= otherNext) := by
  intro session remembers
  have stepped := first session remembers
  rw [perform_bind, perform_bind]
  rcases performed : perform part session with ⟨result, after⟩
  rcases otherPerformed : perform other session with ⟨otherResult, otherAfter⟩
  rw [performed, otherPerformed] at stepped
  obtain ⟨remembersAfter, rfl, accord⟩ := stepped
  cases accord with
  | failure failure => exact ⟨remembersAfter, rfl, .failure failure⟩
  | value isRelated => exact second _ _ isRelated _ remembersAfter

theorem InStep.foldlM {items : List γ} {step : α → γ → Evaluation α}
    {otherStep : β → γ → Evaluation β}
    (each : ∀ state twin item, item ∈ items → related state twin →
      InStep documents related (step state item) (otherStep twin item)) {state : α} {twin : β}
    (start : related state twin) :
    InStep documents related (items.foldlM step state) (items.foldlM otherStep twin) := by
  induction items generalizing state twin with
  | nil => exact .pure start
  | cons item items induction =>
      rw [List.foldlM_cons, List.foldlM_cons]
      refine .bind (each state twin item List.mem_cons_self start) fun next twin isRelated => ?_
      exact induction (fun state twin other isOther =>
        each state twin other (List.mem_cons_of_mem _ isOther)) isRelated

theorem InStep.mapM {items : List γ} {transform : γ → Evaluation α}
    {otherTransform : γ → Evaluation β}
    (each : ∀ item ∈ items, InStep documents related (transform item) (otherTransform item)) :
    InStep documents
      (fun values twins => values.length = items.length ∧ List.Forall₂ related values twins)
      (items.mapM transform) (items.mapM otherTransform) := by
  induction items with
  | nil => exact .pure ⟨rfl, .nil⟩
  | cons item items induction =>
      rw [List.mapM_cons, List.mapM_cons]
      obtain ⟨first, others⟩ := List.forall_mem_cons.mp each
      refine .bind first fun value twin isRelated => .bind (induction others) ?_
      rintro values twins ⟨sameLength, areRelated⟩
      exact .pure ⟨congrArg (· + 1) sameLength, .cons isRelated areRelated⟩

/-- A safe part is in lockstep with itself. -/
theorem InStep.of_safe {part : Evaluation Value}
    (safe : Safe (.among documents) part (·.Rooted documents)) :
    InStep documents (Value.Akin documents marks) part part := by
  intro session remembers
  have result := safe session remembers
  rcases performed : perform part session with ⟨failure | value, after⟩
  · rw [performed] at result
    exact ⟨result.2, rfl, .failure failure⟩
  · rw [performed] at result
    exact ⟨result.2, rfl, .value (.same result.1)⟩

/-! ## Steps of an evaluation -/

variable {source : Source} {span : Span}

theorem inStep_lookup {scope otherScope : Scope} {name : Text}
    (akin : Option.Rel (Value.Akin documents marks) (Scope.value? scope name)
      (Scope.value? otherScope name)) :
    InStep documents (Value.Akin documents marks) (lookup source span scope name)
      (lookup source span otherScope name) := by
  unfold Scope.value? at akin
  unfold lookup
  generalize scope.find? (fun binding => decide (binding.1 = name)) = found,
    otherScope.find? (fun binding => decide (binding.1 = name)) = otherFound at akin ⊢
  rcases found with _ | ⟨_, value⟩ <;> rcases otherFound with _ | ⟨_, twin⟩
  · exact .fail
  · cases akin
  · cases akin
  · cases akin with
    | some areAkin => exact .pure areAkin

theorem inStep_access {target twin : Value} (areAkin : Value.Akin documents marks target twin)
    (field : Text) :
    InStep documents (Value.Akin documents marks) (access source span target field)
      (access source span twin field) := by
  have fieldsRelated := Value.parametric_akin.fields? areAkin
  unfold access
  rw [Value.parametric_akin.typeName areAkin]
  generalize target.fields? = fields, twin.fields? = twinFields at fieldsRelated ⊢
  cases fieldsRelated with
  | none => exact .fail
  | @some fields twinFields fieldsRelated =>
      have found := fieldsRelated.get? (.text field)
      dsimp only
      generalize Fields.get? fields (.text field) = value,
        Fields.get? twinFields (.text field) = twinValue at found ⊢
      cases found with
      | none => exact .fail
      | some areAkin => exact .pure areAkin

theorem logicalOperand_eq {value twin : Value} (areAkin : Value.Akin documents marks value twin)
    (operator : BinaryOperator) :
    logicalOperand source span operator value = logicalOperand source span operator twin := by
  rcases Value.parametric_akin.bools areAkin with ⟨truth, rfl, rfl⟩ | ⟨noTruth, noTwin⟩
  · rfl
  · unfold logicalOperand
    split
    case h_1 truth => exact absurd rfl (noTruth truth)
    case h_2 => rw [Value.parametric_akin.typeName areAkin]

theorem inStep_logicalOperand {value twin : Value}
    (areAkin : Value.Akin documents marks value twin) (operator : BinaryOperator) :
    InStep documents Eq (logicalOperand source span operator value)
      (logicalOperand source span operator twin) := by
  rw [logicalOperand_eq areAkin]
  unfold logicalOperand
  split
  · exact .pure rfl
  · exact .fail

theorem inStep_applyOperator {depth : Nat} {site otherSite : Site}
    (marked : marks site.origin otherSite.origin) {operator : BinaryOperator}
    (noComparison : ¬(operator = .equal ∨ operator = .notEqual))
    {left leftTwin right rightTwin : Value}
    (leftAkin : Value.Akin documents marks left leftTwin)
    (rightAkin : Value.Akin documents marks right rightTwin) :
    InStep documents (Value.Akin documents marks)
      (applyOperator depth site source span operator left right)
      (applyOperator depth otherSite source span operator leftTwin rightTwin) := by
  have accord := Value.parametric_akin.apply depth marked operator leftAkin rightAkin
    fun isComparison => absurd isComparison noComparison
  unfold applyOperator
  generalize operator.apply depth site.origin left right = result,
    operator.apply depth otherSite.origin leftTwin rightTwin = otherResult at accord ⊢
  cases accord with
  | value areAkin => exact .pure areAkin
  | failure fault =>
      dsimp only
      unfold failOperator
      rw [Value.parametric_akin.typeName leftAkin, Value.parametric_akin.typeName rightAkin]
      split
      · exact .throw
      · exact .throw
      · exact .fail
      · split
        · exact .throw
        · exact .fail

theorem inStep_applyUnary {site otherSite : Site} (marked : marks site.origin otherSite.origin)
    (operator : UnaryOperator) {operand twin : Value}
    (areAkin : Value.Akin documents marks operand twin) :
    InStep documents (Value.Akin documents marks) (applyUnary site source span operator operand)
      (applyUnary otherSite source span operator twin) := by
  have applied := Value.parametric_akin.unary marked operator areAkin
  unfold applyUnary
  rw [Value.parametric_akin.typeName areAkin]
  generalize operator.value? site.origin operand = value,
    operator.value? otherSite.origin twin = otherValue at applied ⊢
  cases applied with
  | none => exact .fail
  | some areAkin => exact .pure areAkin

/-! ## One level -/

/-- At any step from two places, the marks of what is made there go together. -/
def Paired (marks : Origin → Origin → Prop) (site other : Site) : Prop :=
  ∀ way, marks (.made site.document (way ++ site.way)) (.made other.document (way ++ other.way))

theorem Paired.origin {site otherSite : Site} (paired : Paired marks site otherSite) :
    marks site.origin otherSite.origin :=
  paired []

theorem Paired.step {site otherSite : Site} (paired : Paired marks site otherSite) (part : Nat) :
    Paired marks (site.step part) (otherSite.step part) := by
  intro way
  have marked := paired (way ++ [part])
  rwa [List.append_assoc, List.append_assoc] at marked

variable {store : Store} {depth : Nat}

/-- Expressions that stand in documents are evaluated in lockstep, in scopes that agree on their
free names. -/
def KeepsStep (depth : Nat) (store : Store) (marks : Origin → Origin → Prop) : Prop :=
  ∀ {site otherSite : Site} {source : Source} {scope otherScope : Scope} {expr : Expr},
    Paired marks site otherSite → StandsIn store.documents source expr →
    Value.ScopesAkin store.documents marks expr.Free scope otherScope →
    InStep store.documents (Value.Akin store.documents marks)
      (ofExpr depth store site source scope expr)
      (ofExpr depth store otherSite source otherScope expr)

section

variable {site otherSite : Site} {scope otherScope : Scope}

theorem inStep_record (keeps : KeepsStep depth store marks) (paired : Paired marks site otherSite)
    {fields : List (Span × Text × Expr)}
    (standsIn : StandsIn store.documents source (.record span fields))
    (agree : Value.ScopesAkin store.documents marks (Expr.record span fields).Free scope
      otherScope) :
    InStep store.documents (Value.Akin store.documents marks)
      (ofExpr (depth + 1) store site source scope (.record span fields))
      (ofExpr (depth + 1) store otherSite source otherScope (.record span fields)) := by
  rw [ofExpr_record, ofExpr_record]
  refine .bind (.foldlM (fun known twin field isField areRelated => ?_) .nil)
    fun known twin areRelated => .pure (Value.akin_record areRelated)
  have member := List.fst_mem_of_mem_zipIdx isField
  have extended : InStep store.documents
      (Fields.Related (Value.Akin store.documents marks))
      (ofExpr depth store (site.step field.2) source scope field.1.2.2 >>= fun value =>
        pure (known ++ [(.text field.1.2.1, value)]))
      (ofExpr depth store (otherSite.step field.2) source otherScope field.1.2.2 >>= fun value =>
        pure (twin ++ [(.text field.1.2.1, value)])) := by
    refine .bind (keeps (paired.step _) (standsIn.part (.field member))
      (agree.mono fun name isFree => .field member isFree)) fun value otherValue areAkin => ?_
    exact .pure (List.rel_append areRelated (.cons ⟨rfl, areAkin⟩ .nil))
  have sameKnown : (Fields.get? known (.text field.1.2.1)).isSome =
      (Fields.get? twin (.text field.1.2.1)).isSome := by
    have found := areRelated.get? (.text field.1.2.1)
    generalize Fields.get? known _ = value, Fields.get? twin _ = otherValue at found ⊢
    cases found <;> rfl
  have duplicate : InStep store.documents (fun _ _ => True)
      (failWith source field.1.1 .duplicateField [("name", field.1.2.1)] : Evaluation PUnit)
      (failWith source field.1.1 .duplicateField [("name", field.1.2.1)] : Evaluation PUnit) :=
    .fail
  unfold recordStep
  rw [sameKnown]
  split
  · exact .bind duplicate fun _ _ _ => extended
  · exact extended

/-- An operator on operands in lockstep, whether or not it needs both. -/
theorem inStep_binary (keeps : KeepsStep depth store marks) (paired : Paired marks site otherSite)
    {operator : BinaryOperator} {left right : Expr}
    (noComparison : ¬(operator = .equal ∨ operator = .notEqual))
    (standsIn : StandsIn store.documents source (.binary span operator left right))
    (agree : Value.ScopesAkin store.documents marks (Expr.binary span operator left right).Free
      scope otherScope) :
    InStep store.documents (Value.Akin store.documents marks)
      (ofExpr (depth + 1) store site source scope (.binary span operator left right))
      (ofExpr (depth + 1) store otherSite source otherScope
        (.binary span operator left right)) := by
  have leftStep := keeps (paired.step 0) (standsIn.part .left)
    (agree.mono fun name isFree => .left isFree)
  have rightStep := keeps (paired.step 1) (standsIn.part .right)
    (agree.mono fun name isFree => .right isFree)
  have leftTruth (operator : BinaryOperator) : InStep store.documents Eq
      (truth depth store source scope (site.step 0) operator left)
      (truth depth store source otherScope (otherSite.step 0) operator left) :=
    .bind leftStep fun value twin areAkin => inStep_logicalOperand areAkin operator
  have rightTruth (operator : BinaryOperator) : InStep store.documents Eq
      (truth depth store source scope (site.step 1) operator right)
      (truth depth store source otherScope (otherSite.step 1) operator right) :=
    .bind rightStep fun value twin areAkin => inStep_logicalOperand areAkin operator
  have answer (holds : Bool) : InStep store.documents (Value.Akin store.documents marks)
      (pure (.bool holds)) (pure (.bool holds)) :=
    .pure (Value.parametric_akin.ofBool holds)
  cases operator with
  | conjunction =>
      rw [ofExpr_conjunction, ofExpr_conjunction]
      refine .bind (leftTruth _) ?_
      rintro holds _ rfl
      split
      · refine .bind (rightTruth _) ?_
        rintro holds _ rfl
        exact answer holds
      · exact answer false
  | disjunction =>
      rw [ofExpr_disjunction, ofExpr_disjunction]
      refine .bind (leftTruth _) ?_
      rintro holds _ rfl
      split
      · exact answer true
      · refine .bind (rightTruth _) ?_
        rintro holds _ rfl
        exact answer holds
  | _ =>
      exact .bind leftStep fun leftValue leftTwin leftAkin =>
        .bind rightStep fun rightValue rightTwin rightAkin =>
          inStep_applyOperator paired.origin noComparison leftAkin rightAkin

theorem inStep_conditional (keeps : KeepsStep depth store marks)
    (paired : Paired marks site otherSite) {condition thenBranch elseBranch : Expr}
    (standsIn : StandsIn store.documents source
      (.conditional span condition thenBranch elseBranch))
    (agree : Value.ScopesAkin store.documents marks
      (Expr.conditional span condition thenBranch elseBranch).Free scope otherScope) :
    InStep store.documents (Value.Akin store.documents marks)
      (ofExpr (depth + 1) store site source scope
        (.conditional span condition thenBranch elseBranch))
      (ofExpr (depth + 1) store otherSite source otherScope
        (.conditional span condition thenBranch elseBranch)) := by
  rw [ofExpr_conditional, ofExpr_conditional]
  refine .bind (keeps (paired.step 0) (standsIn.part .condition)
    (agree.mono fun name isFree => .condition isFree)) fun given twin areAkin => ?_
  rcases Value.parametric_akin.bools areAkin with ⟨truth, rfl, rfl⟩ | ⟨noTruth, noTwin⟩
  · cases truth with
    | true =>
        exact keeps (paired.step 1) (standsIn.part .thenBranch)
          (agree.mono fun name isFree => .thenBranch isFree)
    | false =>
        exact keeps (paired.step 2) (standsIn.part .elseBranch)
          (agree.mono fun name isFree => .elseBranch isFree)
  · have fails {site : Site} {scope : Scope} {value : Value}
        (noTruth : ∀ truth, value ≠ .bool truth) :
        applyCondition depth store site source scope condition thenBranch elseBranch value =
          failWith source condition.span .conditionNotBoolean [("provided", value.typeName)] := by
      cases value with
      | bool truth => exact absurd rfl (noTruth truth)
      | _ => rfl
    rw [fails noTruth, fails noTwin, Value.parametric_akin.typeName areAkin]
    exact .fail

/-- A call runs the code of one function in scopes that agree on what it can use. -/
theorem inStep_call (keeps : KeepsStep depth store marks) (paired : Paired marks site otherSite)
    {callee : Expr} {arguments : List Expr}
    (standsIn : StandsIn store.documents source (.call span callee arguments))
    (agree : Value.ScopesAkin store.documents marks (Expr.call span callee arguments).Free scope
      otherScope) :
    InStep store.documents (Value.Akin store.documents marks)
      (ofExpr (depth + 1) store site source scope (.call span callee arguments))
      (ofExpr (depth + 1) store otherSite source otherScope (.call span callee arguments)) := by
  rw [ofExpr_call, ofExpr_call]
  refine .bind (keeps (paired.step 0) (standsIn.part .callee)
    (agree.mono fun name isFree => .callee isFree)) fun given twin areAkin => ?_
  rcases areAkin.cases_function with
    ⟨_, _, parameters, body, closure, otherClosure, home, rfl, rfl, bodyStands, closuresAgree⟩ |
    ⟨noCode, noTwinCode⟩
  · unfold applyCall
    dsimp only
    split
    · exact .fail
    case isFalse sameLength =>
      refine .bind (.mapM fun argument isArgument => keeps (paired.step (argument.2 + 2))
        (standsIn.part (.argument (List.fst_mem_of_mem_zipIdx isArgument)))
        (agree.mono fun name isFree =>
          .argument (List.fst_mem_of_mem_zipIdx isArgument) isFree)) ?_
      rintro values twins ⟨valuesLength, areAkin⟩
      rw [List.length_zipIdx, not_not.mp sameLength] at valuesLength
      exact keeps (paired.step 1) bodyStands (.bind valuesLength areAkin closuresAgree)
  · have fails {site : Site} {scope : Scope} {value : Value} (noCode : value.code? = none) :
        applyCall depth store site source scope span arguments value =
          failWith source span .notAFunction [("provided", value.typeName)] := by
      cases value with
      | function => cases noCode
      | _ => rfl
    rw [fails noCode, fails noTwinCode, Value.parametric_akin.typeName areAkin]
    exact .fail

/-- What is known of a depth holds of the next one. -/
theorem keepsStep_succ (closed : store.Closed)
    (compareless : ∀ document ∈ store.documents, ∀ tree, document.content = .expr tree →
      tree.Avoids Expr.isComparison)
    (keeps : KeepsStep depth store marks) : KeepsStep (depth + 1) store marks := by
  intro site otherSite source scope otherScope expr paired standsIn agree
  cases expr with
  | number span value => exact .pure (Value.akin_ofNumber value paired.origin)
  | string span value => exact .pure (Value.parametric_akin.ofText value)
  | boolean span value => exact .pure (Value.parametric_akin.ofBool value)
  | null span => exact .pure (Value.akin_of_plain rfl rfl)
  | identifier span name => exact inStep_lookup (agree name .identifier)
  | record span fields => exact inStep_record keeps paired standsIn agree
  | array span items =>
      rw [ofExpr_array, ofExpr_array]
      refine .bind (.mapM fun item isItem => keeps (paired.step item.2)
        (standsIn.part (.item (List.fst_mem_of_mem_zipIdx isItem)))
        (agree.mono fun name isFree => .item (List.fst_mem_of_mem_zipIdx isItem) isFree)) ?_
      rintro values twins ⟨_, areAkin⟩
      exact .pure (Value.akin_array areAkin)
  | importOf span path =>
      obtain ⟨target, isTarget, known⟩ := closed.resolved_import standsIn
      rw [ofExpr_importOf, ofExpr_importOf, isTarget]
      exact .of_safe (safe_ofPath closed depth known)
  | letIn span name value body =>
      rw [ofExpr_letIn, ofExpr_letIn]
      refine .bind (keeps (paired.step 0) (standsIn.part .letValue)
        (agree.mono fun name isFree => .letValue isFree)) fun given twin areAkin => ?_
      refine keeps (paired.step 1) (standsIn.part .letBody) (.cons areAkin (agree.mono ?_))
      rintro other ⟨differs, isFree⟩
      exact .letBody differs isFree
  | function span parameters body =>
      refine .pure (Value.akin_function (standsIn.part .functionBody) (agree.mono ?_))
      rintro name ⟨notBound, isFree⟩
      exact .functionBody notBound isFree
  | conditional span condition thenBranch elseBranch =>
      exact inStep_conditional keeps paired standsIn agree
  | binary span operator left right =>
      refine inStep_binary keeps paired ?_ standsIn agree
      obtain ⟨document, isDocument, tree, _, isTree, within⟩ := standsIn
      have avoided := compareless document isDocument tree isTree _ within
      rintro (rfl | rfl)
      · exact avoided rfl
      · exact avoided rfl
  | unary span operator operand =>
      rw [ofExpr_unary, ofExpr_unary]
      exact .bind (keeps (paired.step 0) (standsIn.part .operand)
        (agree.mono fun name isFree => .operand isFree)) fun given twin areAkin =>
          inStep_applyUnary paired.origin operator areAkin
  | access span target field =>
      rw [ofExpr_access, ofExpr_access]
      exact .bind (keeps (paired.step 0) (standsIn.part .target)
        (agree.mono fun name isFree => .target isFree)) fun given twin areAkin =>
          inStep_access areAkin field
  | call span callee arguments => exact inStep_call keeps paired standsIn agree

/-- In a closed store whose documents compare nothing, all expressions are evaluated in lockstep in
scopes that agree on their free names. -/
theorem inStep_ofExpr (closed : store.Closed)
    (compareless : ∀ document ∈ store.documents, ∀ tree, document.content = .expr tree →
      tree.Avoids Expr.isComparison) (depth : Nat) : KeepsStep depth store marks := by
  induction depth with
  | zero => exact fun _ _ _ => .throw
  | succ depth induction => exact keepsStep_succ closed compareless induction

end

end ConfigGraph.Evaluation
