import ConfigGraph.Proofs.Evaluation.Level
import ConfigGraph.Proofs.Value.Rooted

/-!
# Safe parts of an evaluation

A contract says what is known of the sessions of an evaluation, and which failures are expected.  A
part is safe under a contract if in every session of which that is known it either gives a good
value or fails as expected, and leaves such a session behind.  The rules below put safe parts
together.

Functions only ever carry code that stands in documents.  So one level of the evaluation of an
expression that stands in some documents is safe if the evaluation of the expressions and documents
that it needs is (`safe_level`).
-/

namespace ConfigGraph.Evaluation

variable {α β : Type}

/-! ## Contracts -/

/-- What is known of the sessions of an evaluation, and which of its failures are expected. -/
structure Contract where
  session : Session → Prop
  failure : Failure → Prop

/-- What a safe part can come to. -/
def SafeResult (contract : Contract) (good : α → Prop) : Except Failure α × Session → Prop
  | (.ok value, after) => good value ∧ contract.session after
  | (.error failure, after) => contract.failure failure ∧ contract.session after

/-- In every session of which enough is known, a part gives a good value or fails as expected, and
as much is known of the session behind it. -/
def Safe (contract : Contract) (part : Evaluation α) (good : α → Prop) : Prop :=
  ∀ session, contract.session session → SafeResult contract good (perform part session)

variable {contract : Contract} {good : α → Prop} {better : β → Prop}

theorem Safe.pure {value : α} (isGood : good value) : Safe contract (Pure.pure value) good :=
  fun _ known => ⟨isGood, known⟩

theorem Safe.throw {failure : Failure} (expected : contract.failure failure) :
    Safe contract (MonadExcept.throw failure) good :=
  fun _ known => ⟨expected, known⟩

theorem Safe.bind {part : Evaluation α} {next : α → Evaluation β} (first : Safe contract part good)
    (second : ∀ value, good value → Safe contract (next value) better) :
    Safe contract (part >>= next) better := by
  intro session known
  have result := first session known
  rw [perform_bind]
  cases performed : perform part session with
  | mk outcome after =>
      rw [performed] at result
      cases outcome with
      | ok value => exact second value result.1 after result.2
      | error failure => exact result

/-- A part of which each step keeps what is known of the state. -/
theorem Safe.foldlM {known : β → Prop} {step : β → α → Evaluation β} {items : List α}
    (keeps : ∀ state item, item ∈ items → known state → Safe contract (step state item) known)
    {state : β} (start : known state) : Safe contract (items.foldlM step state) known := by
  induction items generalizing state with
  | nil => exact .pure start
  | cons item items induction =>
      rw [List.foldlM_cons]
      refine .bind (keeps state item List.mem_cons_self start) fun next isKnown => ?_
      refine induction (fun state other isOther => ?_) isKnown
      exact keeps state other (List.mem_cons_of_mem _ isOther)

theorem Safe.mapM {transform : α → Evaluation β} {items : List α}
    (each : ∀ item ∈ items, Safe contract (transform item) better) :
    Safe contract (items.mapM transform) fun images => ∀ image ∈ images, better image := by
  induction items with
  | nil => exact .pure (List.forall_mem_nil _)
  | cons item items induction =>
      rw [List.mapM_cons]
      obtain ⟨first, others⟩ := List.forall_mem_cons.mp each
      refine .bind first fun image isGood => .bind (induction others) fun images areGood => ?_
      exact .pure (List.forall_mem_cons.mpr ⟨isGood, areGood⟩)

/-- What is known of a session behind a safe part. -/
theorem Safe.session {part : Evaluation α} (safe : Safe contract part good) {session : Session}
    (known : contract.session session) : contract.session (perform part session).2 := by
  have result := safe session known
  rcases performed : perform part session with ⟨_ | _, after⟩
  · rw [performed] at result
    exact result.2
  · rw [performed] at result
    exact result.2

/-- What a safe part fails with is expected. -/
theorem Safe.expected {part : Evaluation α} (safe : Safe contract part good) {session : Session}
    (known : contract.session session) {failure : Failure}
    (failed : (perform part session).1 = .error failure) : contract.failure failure := by
  have result := safe session known
  rcases performed : perform part session with ⟨_ | _, after⟩
  · rw [performed] at result failed
    cases failed
    exact result.1
  · rw [performed] at failed
    cases failed

/-! ## Documents -/

/-- While a document is evaluated another contract can hold, if it can be taken up when the document
is entered, and given back when it is left. -/
theorem safeResult_within {inside outside : Contract} {path : Text} {body : Evaluation Value}
    {session : Session} {good better : Value → Prop}
    (entered : SafeResult inside good (perform body (session.enter path)))
    (values : ∀ value, good value → better value)
    (failures : ∀ failure, inside.failure failure → outside.failure failure)
    (leaves : ∀ after, inside.session after → outside.session (after.leave path))
    (remembers : ∀ value after, good value → outside.session after →
      outside.session (after.remember path value)) :
    SafeResult outside better (perform (within path body) session) := by
  rw [perform_within]
  rcases performed : perform body (session.enter path) with ⟨failure | value, after⟩
  · rw [performed] at entered
    exact ⟨failures failure entered.1, leaves after entered.2⟩
  · rw [performed] at entered
    exact ⟨values value entered.1, remembers value _ entered.1 (leaves after entered.2)⟩

/-- What has to be known of a document for its evaluation to be safe in a session: its value if that
is remembered, and else how it is evaluated, unless that is not possible. -/
theorem safeResult_ofDocument {store : Store} {evaluate : Document → Expr → Evaluation Value}
    {path : Text} {session : Session} {good : Value → Prop} (known : contract.session session)
    (remembered : ∀ value, session.value? path = some value → good value)
    (missing : store.find? path = none →
      contract.failure (.fault (.internal (.unknownDocument path))))
    (needed : path ∈ session.active → contract.failure (.error (recursionError path)))
    (evaluated : ∀ document, store.find? path = some document → path ∉ session.active →
      SafeResult contract good
        (perform (within path (ofContent (evaluate document) document.content)) session)) :
    SafeResult contract good (perform (ofDocument store evaluate path) session) := by
  unfold ofDocument
  rw [perform_bind, perform_get]
  dsimp only
  cases isValue : session.value? path with
  | some value => exact ⟨remembered value isValue, known⟩
  | none =>
      cases found : store.find? path with
      | none => exact ⟨missing found, known⟩
      | some document =>
          dsimp only
          split
          case isTrue active => exact ⟨needed (by simpa using active), known⟩
          case isFalse inactive => exact evaluated document found (by simpa using inactive)

/-! ## Failures at nodes -/

/-- The failure at a span of a document. -/
def failureAt (source : Source) (span : Span) (code : ErrorCode) (details : Details) : Failure :=
  match rangeOfSpan? source.text (some span) with
  | .ok range => .error ⟨.evaluation, code, some source.path, some range, details⟩
  | .error misstep => .fault (.misstep misstep)

theorem fail_eq_throw (source : Source) (span : Span) (code : ErrorCode) (details : Details) :
    (fail source span code details : Evaluation α) = throw (failureAt source span code details) := by
  unfold fail failureAt
  cases rangeOfSpan? source.text (some span) <;> rfl

/-- Failures at a span are expected.  A document that needs itself fails at no span. -/
def Contract.Admits (contract : Contract) (source : Source) (span : Span) : Prop :=
  ∀ code details, code ≠ .infiniteRecursion → code.missing? details = none →
    contract.failure (failureAt source span code details)

theorem Contract.Admits.fail {source : Source} {span : Span} (admits : contract.Admits source span)
    {code : ErrorCode} {details : Details} (other : code ≠ .infiniteRecursion)
    (complete : code.missing? details = none) :
    Safe contract (Evaluation.fail source span code details) good := by
  rw [fail_eq_throw]
  exact .throw (admits code details other complete)

/-- What the evaluation of expressions in some documents can fail with of its own accord is
expected: failures at nodes, and the faults of operators. -/
structure Contract.Covers (contract : Contract) (documents : List Document) : Prop where
  node : ∀ {source : Source} {expr : Expr} {node : Expr.Node}, StandsIn documents source expr →
    node ∈ expr.nodes → contract.Admits source node.span
  unending : contract.failure (.fault .unending)
  overflow : ∀ overflow, contract.failure (.fault (.overflow overflow))
  difference : contract.failure (.fault (.operatorWithoutSymbol .subtract))

variable {documents : List Document}

theorem Contract.Covers.expr (covers : contract.Covers documents) {source : Source} {expr : Expr}
    (standsIn : StandsIn documents source expr) : contract.Admits source expr.span := by
  have placed := covers.node standsIn expr.mem_nodes_self
  exact placed

theorem Contract.Covers.field (covers : contract.Covers documents) {source : Source} {span : Span}
    {fields : List (Span × Text × Expr)}
    (standsIn : StandsIn documents source (.record span fields)) {field : Span × Text × Expr}
    (member : field ∈ fields) : contract.Admits source field.1 := by
  have listed : Expr.Node.field field.1 field.2.1 field.2.2 ∈ (Expr.record span fields).nodes :=
    Expr.Within.field_mem_nodes .refl member
  have placed := covers.node standsIn listed
  exact placed

/-! ## Steps of an evaluation -/

/-- All values in a scope are rooted. -/
abbrev ScopeRooted (documents : List Document) (scope : Scope) : Prop :=
  ∀ binding ∈ scope, binding.2.Rooted documents

theorem safe_lookup {source : Source} {span : Span} (place : contract.Admits source span)
    {scope : Scope} (scopeRooted : ScopeRooted documents scope) (name : Text) :
    Safe contract (lookup source span scope name) (·.Rooted documents) := by
  unfold lookup
  split
  case h_1 found => exact .pure (scopeRooted _ (List.mem_of_find?_eq_some found))
  case h_2 => exact place.fail nofun rfl

theorem safe_access {source : Source} {span : Span} (place : contract.Admits source span)
    {target : Value} (rooted : target.Rooted documents) (field : Text) :
    Safe contract (access source span target field) (·.Rooted documents) := by
  unfold access
  split
  case h_1 => exact place.fail nofun rfl
  case h_2 fields isFields =>
    split
    case h_1 value found => exact .pure (Value.inherited_rooted.get? rooted isFields found)
    case h_2 => exact place.fail nofun rfl

theorem safe_logicalOperand {source : Source} {span : Span} (place : contract.Admits source span)
    (operator : BinaryOperator) (value : Value) :
    Safe contract (logicalOperand source span operator value) fun _ => True := by
  unfold logicalOperand
  split
  · exact .pure trivial
  · exact place.fail nofun rfl

/-- Every operator but the difference has a symbol to report a mismatch with. -/
theorem safe_failOperator (covers : contract.Covers documents) {source : Source} {span : Span}
    (place : contract.Admits source span) (operator : BinaryOperator) (left right : Value)
    (fault : OperatorFault) :
    Safe contract (failOperator source span operator left right fault : Evaluation α) good := by
  cases fault with
  | unending => exact .throw covers.unending
  | overflow overflow => exact .throw (covers.overflow overflow)
  | divisionByZero => exact place.fail nofun rfl
  | mismatch =>
      cases operator with
      | subtract => exact .throw covers.difference
      | add | multiply | divide | modulo | concat | merge | conjunction | disjunction | equal
      | notEqual | less | lessOrEqual | greater | greaterOrEqual => exact place.fail nofun rfl

theorem safe_applyOperator (covers : contract.Covers documents) {depth : Nat} {site : Site}
    {source : Source} {span : Span} (place : contract.Admits source span)
    (operator : BinaryOperator) {left right : Value} (leftRooted : left.Rooted documents)
    (rightRooted : right.Rooted documents) :
    Safe contract (applyOperator depth site source span operator left right)
      (·.Rooted documents) := by
  unfold applyOperator
  split
  case h_1 value applied =>
    exact .pure (Value.inherited_rooted.apply applied leftRooted rightRooted)
  case h_2 fault _ => exact safe_failOperator covers place operator left right fault

theorem safe_applyUnary {site : Site} {source : Source} {span : Span}
    (place : contract.Admits source span) (operator : UnaryOperator) {operand : Value}
    (rooted : operand.Rooted documents) :
    Safe contract (applyUnary site source span operator operand) (·.Rooted documents) := by
  unfold applyUnary
  split
  case h_1 value applied => exact .pure (Value.inherited_rooted.unary applied rooted)
  case h_2 => exact place.fail nofun rfl

theorem rooted_bind {parameters : List Text} {arguments : List Value} {scope : Scope}
    (argumentsRooted : ∀ argument ∈ arguments, argument.Rooted documents)
    (scopeRooted : ScopeRooted documents scope) :
    ScopeRooted documents (Evaluation.bind parameters arguments scope) := by
  intro binding member
  rcases List.mem_append.mp member with isNew | isOld
  · obtain ⟨_, isArgument⟩ := List.of_mem_zip (List.mem_reverse.mp isNew)
    exact argumentsRooted _ isArgument
  · exact scopeRooted binding isOld

/-! ## One level -/

/-- Expressions that stand in some documents are evaluated safely. -/
def SafeInside (contract : Contract) (documents : List Document)
    (inner : Site → Source → Scope → Expr → Evaluation Value) : Prop :=
  ∀ {site : Site} {source : Source} {scope : Scope} {expr : Expr},
    StandsIn documents source expr → ScopeRooted documents scope →
    Safe contract (inner site source scope expr) (·.Rooted documents)

section

variable {depth : Nat} {store : Store} {inner : Site → Source → Scope → Expr → Evaluation Value}
  {needed : Text → Evaluation Value} {site : Site} {source : Source} {scope : Scope} {span : Span}

theorem safe_level_record (covers : contract.Covers documents)
    (innerSafe : SafeInside contract documents inner) {fields : List (Span × Text × Expr)}
    (standsIn : StandsIn documents source (.record span fields))
    (scopeRooted : ScopeRooted documents scope) :
    Safe contract (level depth store inner needed site source scope (.record span fields))
      (·.Rooted documents) := by
  refine .bind (Safe.foldlM (fun known field isField rooted => ?_) (List.forall_mem_nil _))
    fun known rooted => .pure (Value.rooted_record.mpr rooted)
  have member := List.fst_mem_of_mem_zipIdx isField
  have extended : Safe contract
      (inner (site.step field.2) source scope field.1.2.2 >>= fun value =>
        pure (known ++ [(.text field.1.2.1, value)])) (Fields.Rooted documents) := by
    refine .bind (innerSafe (standsIn.part (.field member)) scopeRooted) fun value valueRooted =>
      .pure fun other isOther => ?_
    rcases List.mem_append.mp isOther with isOld | isNew
    · exact rooted other isOld
    · cases List.mem_singleton.mp isNew
      exact valueRooted
  have duplicate : Safe contract (failWith source field.1.1 .duplicateField
      [("name", field.1.2.1)] : Evaluation PUnit) fun _ => True :=
    (covers.field standsIn member).fail nofun rfl
  split
  · exact .bind duplicate fun _ _ => extended
  · exact extended

/-- An operator on safe operands is safe, whether or not it needs both. -/
theorem safe_level_binary (covers : contract.Covers documents)
    (innerSafe : SafeInside contract documents inner) {operator : BinaryOperator}
    {left right : Expr} (standsIn : StandsIn documents source (.binary span operator left right))
    (scopeRooted : ScopeRooted documents scope) :
    Safe contract (level depth store inner needed site source scope
      (.binary span operator left right)) (·.Rooted documents) := by
  have leftSafe (site : Site) : Safe contract (inner site source scope left) (·.Rooted documents) :=
    innerSafe (standsIn.part .left) scopeRooted
  have rightSafe (site : Site) :
      Safe contract (inner site source scope right) (·.Rooted documents) :=
    innerSafe (standsIn.part .right) scopeRooted
  have leftTruth (operator : BinaryOperator) (value : Value) :=
    safe_logicalOperand (covers.expr (standsIn.part .left)) operator value
  have rightTruth (operator : BinaryOperator) (value : Value) :=
    safe_logicalOperand (covers.expr (standsIn.part .right)) operator value
  have answer (holds : Bool) : (Value.bool holds).Rooted documents :=
    Value.rooted_of_plain rfl rfl
  cases operator with
  | conjunction =>
      refine .bind (leftSafe _) fun value _ => .bind (leftTruth .conjunction value) fun holds _ => ?_
      split
      · exact .bind (rightSafe _) fun value _ =>
          .bind (rightTruth .conjunction value) fun holds _ => .pure (answer holds)
      · exact .pure (answer false)
  | disjunction =>
      refine .bind (leftSafe _) fun value _ => .bind (leftTruth .disjunction value) fun holds _ => ?_
      split
      · exact .pure (answer true)
      · exact .bind (rightSafe _) fun value _ =>
          .bind (rightTruth .disjunction value) fun holds _ => .pure (answer holds)
  | _ =>
      exact .bind (leftSafe _) fun leftValue leftRooted =>
        .bind (rightSafe _) fun rightValue rightRooted =>
          safe_applyOperator covers (covers.expr standsIn) _ leftRooted rightRooted

/-- A call is safe: the body of a function stands in the document that the function carries,
whatever that is. -/
theorem safe_level_call (covers : contract.Covers documents)
    (innerSafe : SafeInside contract documents inner) {callee : Expr} {arguments : List Expr}
    (standsIn : StandsIn documents source (.call span callee arguments))
    (scopeRooted : ScopeRooted documents scope) :
    Safe contract (level depth store inner needed site source scope (.call span callee arguments))
      (·.Rooted documents) := by
  have place := covers.expr standsIn
  have valuesSafe : Safe contract (arguments.zipIdx.mapM fun argument =>
      inner (site.step (argument.2 + 2)) source scope argument.1)
      fun values => ∀ value ∈ values, value.Rooted documents := by
    refine .mapM fun argument isArgument => ?_
    exact innerSafe (standsIn.part (.argument (List.fst_mem_of_mem_zipIdx isArgument))) scopeRooted
  refine .bind (innerSafe (standsIn.part .callee) scopeRooted) fun given calleeRooted => ?_
  split
  case h_1 origin parameters body closure home =>
    obtain ⟨bodyStands, closureRooted⟩ := Value.rooted_function.mp calleeRooted
    split
    · exact place.fail nofun rfl
    · exact .bind valuesSafe fun values rooted =>
        innerSafe bodyStands (rooted_bind rooted closureRooted)
  case h_2 => exact place.fail nofun rfl

/-- One level of the evaluation of an expression is safe if the evaluation of the expressions and
documents that it needs is. -/
theorem safe_level (covers : contract.Covers documents)
    (innerSafe : SafeInside contract documents inner)
    (neededSafe : ∀ {source : Source} {span : Span} {path : Text},
      StandsIn documents source (.importOf span path) →
      Safe contract (liftInternal (store.target ⟨source.path, some span⟩) >>= needed)
        (·.Rooted documents)) :
    SafeInside contract documents (level depth store inner needed) := by
  intro site source scope expr standsIn scopeRooted
  have place := covers.expr standsIn
  have part {inside : Expr} (isPart : inside.Part expr) (number : Nat) :
      Safe contract (inner (site.step number) source scope inside) (·.Rooted documents) :=
    innerSafe (standsIn.part isPart) scopeRooted
  cases expr with
  | number span value => exact .pure (Value.rooted_ofNumber _ _)
  | string span value => exact .pure (Value.rooted_of_plain rfl rfl)
  | boolean span value => exact .pure (Value.rooted_of_plain rfl rfl)
  | null span => exact .pure (Value.rooted_of_plain rfl rfl)
  | identifier span name => exact safe_lookup place scopeRooted name
  | record span fields => exact safe_level_record covers innerSafe standsIn scopeRooted
  | array span items =>
      have itemsSafe : Safe contract (items.zipIdx.mapM fun item =>
          inner (site.step item.2) source scope item.1)
          fun values => ∀ value ∈ values, value.Rooted documents := by
        refine .mapM fun item isItem => ?_
        exact part (.item (List.fst_mem_of_mem_zipIdx isItem)) item.2
      exact .bind itemsSafe fun values rooted => .pure (Value.rooted_array.mpr rooted)
  | importOf span path => exact neededSafe standsIn
  | letIn span name value body =>
      refine .bind (part .letValue 0) fun given rooted => ?_
      exact innerSafe (standsIn.part .letBody) (List.forall_mem_cons.mpr ⟨rooted, scopeRooted⟩)
  | function span parameters body =>
      exact .pure (Value.rooted_function.mpr ⟨standsIn.part .functionBody, scopeRooted⟩)
  | conditional span condition thenBranch elseBranch =>
      refine .bind (part .condition 0) fun given _ => ?_
      split
      · exact part .thenBranch 1
      · exact part .elseBranch 2
      · exact (covers.expr (standsIn.part .condition)).fail nofun rfl
  | binary span operator left right =>
      exact safe_level_binary covers innerSafe standsIn scopeRooted
  | unary span operator operand =>
      exact .bind (part .operand 0) fun given rooted => safe_applyUnary place operator rooted
  | access span target field =>
      exact .bind (part .target 0) fun value rooted => safe_access place rooted field
  | call span callee arguments =>
      exact safe_level_call covers innerSafe standsIn scopeRooted

end

end ConfigGraph.Evaluation
