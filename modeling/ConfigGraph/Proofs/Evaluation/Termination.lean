import ConfigGraph.Proofs.Evaluation.Shared
import ConfigGraph.Proofs.Nodes
import ConfigGraph.Proofs.Value.Finite

/-!
# Evaluation without calls ends

Only a call can take an evaluation to an expression of any size again and again.  Without calls an
expression leads to its parts, which are smaller.  An import leads to a whole document, which may be
larger than the one that it stands in and may lead back there; but a document that is being
evaluated is not entered again.  So evaluation ends by the number of documents that are not being
evaluated, and then by the size of what is left to evaluate (`concludes_ofPath`), whatever imports
there are.
-/

namespace ConfigGraph

/-- All values that a session remembers are finite. -/
def Session.Finite (session : Session) : Prop := ∀ entry ∈ session.values, entry.2.IsFinite

theorem Session.finite_start : Session.start.Finite := List.forall_mem_nil _

theorem Session.Finite.value? {session : Session} (finite : session.Finite) {path : Text}
    {value : Value} (remembered : session.value? path = some value) : value.IsFinite := by
  obtain ⟨entry, isEntry, rfl⟩ := Option.map_eq_some_iff.mp remembered
  exact finite entry (List.mem_of_find?_eq_some isEntry)

theorem Session.active_leave {session : Session} {path : Text} {active : List Text}
    (isActive : session.active = path :: active) (new : path ∉ active) :
    (session.leave path).active = active := by
  unfold Session.leave
  rw [isActive, List.filter_cons_of_neg (by simp), List.filter_eq_self]
  intro other member
  simp only [bne_iff_ne, ne_eq]
  rintro rfl
  exact new member

namespace Evaluation

variable {α β : Type}

/-! ## Parts that end -/

/-- What parts come to in a session where some documents are being evaluated, whatever depth beyond
a bound they get: a failure that is no lack of depth, or a good value. -/
structure Conclusion (active : List Text) (parts : Nat → Evaluation α) (good : α → Prop)
    (session : Session) (result : Except Failure α) (after : Session) : Prop where
  ended : result ≠ .error (.fault .unending)
  performed : ∃ bound, ∀ depth, bound ≤ depth → perform (parts depth) session = (result, after)
  active : after.active = active
  finite : after.Finite
  good : ∀ value, result = .ok value → good value

/-- While some documents are being evaluated, parts end. -/
def Concludes (active : List Text) (parts : Nat → Evaluation α) (good : α → Prop) : Prop :=
  ∀ session, session.active = active → session.Finite →
    ∃ result after, Conclusion active parts good session result after

variable {active : List Text} {parts : Nat → Evaluation α} {good : α → Prop} {better : β → Prop}

theorem Conclusion.congr {others : Nat → Evaluation α} {session after : Session}
    {result : Except Failure α} (conclusion : Conclusion active others good session result after)
    (same : ∀ depth, perform (parts depth) session = perform (others depth) session) :
    Conclusion active parts good session result after := by
  obtain ⟨ended, ⟨bound, performed⟩, isActive, finite, isGood⟩ := conclusion
  refine ⟨ended, ⟨bound, fun depth atLeast => ?_⟩, isActive, finite, isGood⟩
  rw [same depth]
  exact performed depth atLeast

theorem Concludes.of_eventually {part : Evaluation α} (bound : Nat)
    (same : ∀ depth, bound ≤ depth → parts depth = part)
    (concludes : Concludes active (fun _ => part) good) : Concludes active parts good := by
  intro session isActive finite
  obtain ⟨result, after, ended, ⟨_, performed⟩, afterActive, afterFinite, isGood⟩ :=
    concludes session isActive finite
  refine ⟨result, after, ended, ⟨bound, fun depth atLeast => ?_⟩, afterActive, afterFinite, isGood⟩
  rw [same depth atLeast]
  exact performed _ le_rfl

theorem Concludes.of_succ (concludes : Concludes active (fun depth => parts (depth + 1)) good) :
    Concludes active parts good := by
  intro session isActive finite
  obtain ⟨result, after, ended, ⟨bound, performed⟩, afterActive, afterFinite, isGood⟩ :=
    concludes session isActive finite
  refine ⟨result, after, ended, ⟨bound + 1, fun depth atLeast => ?_⟩, afterActive, afterFinite,
    isGood⟩
  cases depth with
  | zero => cases atLeast
  | succ depth => exact performed depth (Nat.le_of_succ_le_succ atLeast)

theorem Concludes.pure {value : α} (isGood : good value) :
    Concludes active (fun _ => Pure.pure value) good := by
  intro session isActive finite
  refine ⟨.ok value, session, nofun, ⟨0, fun _ _ => rfl⟩, isActive, finite, ?_⟩
  rintro _ ⟨⟩
  exact isGood

theorem Concludes.throw {failure : Failure} (ended : failure ≠ .fault .unending) :
    Concludes active (fun _ => MonadExcept.throw failure : Nat → Evaluation α) good :=
  fun session isActive finite => ⟨.error failure, session,
    fun same => ended (Except.error.inj same), ⟨0, fun _ _ => rfl⟩, isActive, finite, nofun⟩

theorem Concludes.fail {source : Source} {span : Span} {code : ErrorCode} {details : Details} :
    Concludes active (fun _ => Evaluation.fail source span code details) good := by
  unfold Evaluation.fail
  split <;> exact .throw nofun

theorem Concludes.bind {nexts : Nat → α → Evaluation β} (first : Concludes active parts good)
    (second : ∀ value, good value → Concludes active (fun depth => nexts depth value) better) :
    Concludes active (fun depth => parts depth >>= nexts depth) better := by
  intro session isActive finite
  obtain ⟨result, middle, ended, ⟨bound, performed⟩, middleActive, middleFinite, isGood⟩ :=
    first session isActive finite
  cases result with
  | error failure =>
      refine ⟨.error failure, middle, ended_of_error ended, ⟨bound, fun depth atLeast => ?_⟩,
        middleActive, middleFinite, nofun⟩
      rw [perform_bind, performed depth atLeast]
  | ok value =>
      obtain ⟨last, after, lastEnded, ⟨larger, lastPerformed⟩, afterActive, afterFinite,
        isBetter⟩ := second value (isGood value rfl) middle middleActive middleFinite
      refine ⟨last, after, lastEnded, ⟨max bound larger, fun depth atLeast => ?_⟩, afterActive,
        afterFinite, isBetter⟩
      rw [perform_bind, performed depth (le_of_max_le_left atLeast)]
      exact lastPerformed depth (le_of_max_le_right atLeast)

theorem Concludes.foldlM {steps : Nat → β → α → Evaluation β} {items : List α}
    (keeps : ∀ state item, item ∈ items → better state →
      Concludes active (fun depth => steps depth state item) better) {state : β}
    (start : better state) :
    Concludes active (fun depth => items.foldlM (steps depth) state) better := by
  induction items generalizing state with
  | nil => exact .pure start
  | cons item items induction =>
      simp only [List.foldlM_cons]
      refine .bind (keeps state item List.mem_cons_self start) fun next isNext => ?_
      exact induction (fun state other isOther =>
        keeps state other (List.mem_cons_of_mem _ isOther)) isNext

theorem Concludes.mapM {transforms : Nat → α → Evaluation β} {items : List α}
    (each : ∀ item ∈ items, Concludes active (fun depth => transforms depth item) better) :
    Concludes active (fun depth => items.mapM (transforms depth))
      fun images => ∀ image ∈ images, better image := by
  induction items with
  | nil => exact .pure (List.forall_mem_nil _)
  | cons item items induction =>
      simp only [List.mapM_cons]
      obtain ⟨first, others⟩ := List.forall_mem_cons.mp each
      refine .bind first fun image isGood => .bind (induction others) fun images areGood => ?_
      exact .pure (List.forall_mem_cons.mpr ⟨isGood, areGood⟩)

/-! ## Steps of an evaluation -/

/-- All values in a scope are finite. -/
abbrev ScopeFinite (scope : Scope) : Prop := ∀ binding ∈ scope, binding.2.IsFinite

/-- All values of fields are finite. -/
abbrev FieldsFinite (fields : Fields) : Prop := ∀ field ∈ fields, field.2.IsFinite

theorem concludes_liftInternal (result : Except InternalFault α) :
    Concludes active (fun _ => liftInternal result) fun _ => True := by
  cases result with
  | ok value => exact .pure trivial
  | error fault => exact .throw nofun

theorem concludes_lookup {source : Source} {span : Span} {scope : Scope}
    (finite : ScopeFinite scope) (name : Text) :
    Concludes active (fun _ => lookup source span scope name) Value.IsFinite := by
  unfold lookup
  split
  case h_1 found => exact .pure (finite _ (List.mem_of_find?_eq_some found))
  case h_2 => exact .fail

theorem concludes_access {source : Source} {span : Span} {target : Value}
    (finite : target.IsFinite) (field : Text) :
    Concludes active (fun _ => access source span target field) Value.IsFinite := by
  unfold access
  split
  case h_1 => exact .fail
  case h_2 fields isFields =>
    split
    case h_1 value found =>
      exact .pure (Value.inherited_isFinite.get? finite isFields found)
    case h_2 => exact .fail

theorem concludes_logicalOperand {source : Source} {span : Span} {operator : BinaryOperator}
    (value : Value) :
    Concludes active (fun _ => logicalOperand source span operator value) fun _ => True := by
  unfold logicalOperand
  split
  · exact .pure trivial
  · exact .fail

theorem concludes_failOperator {source : Source} {span : Span} {operator : BinaryOperator}
    {left right : Value} {fault : OperatorFault} (ended : fault ≠ .unending) :
    Concludes active (fun _ => failOperator source span operator left right fault) good := by
  cases fault with
  | unending => exact absurd rfl ended
  | overflow => exact .throw nofun
  | divisionByZero => exact .fail
  | mismatch =>
      unfold failOperator
      dsimp only
      split
      · exact .throw nofun
      · exact .fail

theorem concludes_applyOperator {site : Site} {source : Source} {span : Span}
    (operator : BinaryOperator) {left right : Value} (leftFinite : left.IsFinite)
    (rightFinite : right.IsFinite) :
    Concludes active (fun depth => applyOperator depth site source span operator left right)
      Value.IsFinite := by
  obtain ⟨bound, ended⟩ := BinaryOperator.exists_apply leftFinite rightFinite site.origin operator
  have atBound : Concludes active
      (fun _ => applyOperator bound site source span operator left right) Value.IsFinite := by
    unfold applyOperator
    split
    case h_1 value applied =>
      exact .pure (Value.inherited_isFinite.apply applied leftFinite rightFinite)
    case h_2 fault applied =>
      refine concludes_failOperator ?_
      rintro rfl
      exact ended applied
  refine .of_eventually bound (fun depth atLeast => ?_) atBound
  unfold applyOperator
  rw [BinaryOperator.apply_of_le atLeast ended]

theorem concludes_applyUnary {site : Site} {source : Source} {span : Span}
    (operator : UnaryOperator) {operand : Value} (finite : operand.IsFinite) :
    Concludes active (fun _ => applyUnary site source span operator operand) Value.IsFinite := by
  unfold applyUnary
  split
  case h_1 value applied => exact .pure (Value.inherited_isFinite.unary applied finite)
  case h_2 => exact .fail

/-! ## One level -/

variable {store : Store}

/-- An expression ends in every scope with finite values, wherever it is evaluated. -/
def ExprConcludes (store : Store) (active : List Text) (source : Source) (expr : Expr) : Prop :=
  ∀ site scope, ScopeFinite scope →
    Concludes active (fun depth => ofExpr depth store site source scope expr) Value.IsFinite

variable {source : Source} {span : Span}

theorem concludes_recordStep {site : Site} {scope : Scope} (finite : ScopeFinite scope)
    {field : (Span × Text × Expr) × Nat} (concludes : ExprConcludes store active source field.1.2.2)
    {known : Fields} (areFinite : FieldsFinite known) :
    Concludes active (fun depth => recordStep depth store site source scope known field)
      FieldsFinite := by
  have extended : Concludes active (fun depth =>
      ofExpr depth store (site.step field.2) source scope field.1.2.2 >>= fun value =>
        pure (known ++ [(.text field.1.2.1, value)])) FieldsFinite := by
    refine .bind (concludes _ _ finite) fun value isFinite => .pure fun other isOther => ?_
    rcases List.mem_append.mp isOther with isOld | isNew
    · exact areFinite other isOld
    · cases List.mem_singleton.mp isNew
      exact isFinite
  have duplicate : Concludes active (fun _ => (failWith source field.1.1 .duplicateField
      [("name", field.1.2.1)] : Evaluation PUnit)) fun _ => True := .fail
  unfold recordStep
  split
  · exact .bind duplicate fun _ _ => extended
  · exact extended

theorem concludes_record {fields : List (Span × Text × Expr)}
    (each : ∀ field ∈ fields, ExprConcludes store active source field.2.2) :
    ExprConcludes store active source (.record span fields) := by
  refine fun site scope finite => .of_succ ?_
  simp only [ofExpr_record]
  refine .bind (.foldlM (fun known field isField areFinite => ?_) (List.forall_mem_nil _))
    fun known areFinite => .pure (Value.inherited_isFinite.record areFinite)
  exact concludes_recordStep finite (each field.1 (List.fst_mem_of_mem_zipIdx isField)) areFinite

/-- An operator on operands that end, whether or not it needs both. -/
theorem concludes_binary {operator : BinaryOperator} {left right : Expr}
    (leftConcludes : ExprConcludes store active source left)
    (rightConcludes : ExprConcludes store active source right) :
    ExprConcludes store active source (.binary span operator left right) := by
  refine fun site scope finite => .of_succ ?_
  have truth {operand : Expr} (concludes : ExprConcludes store active source operand) (site : Site)
      (operator : BinaryOperator) :
      Concludes active (fun depth => truth depth store source scope site operator operand)
        fun _ => True :=
    .bind (concludes site scope finite) fun value _ => concludes_logicalOperand value
  have answer (holds : Bool) : (Value.bool holds).IsFinite := Value.inherited_isFinite.ofBool holds
  cases operator with
  | conjunction =>
      simp only [ofExpr_conjunction]
      refine .bind (truth leftConcludes _ _) fun holds _ => ?_
      split
      · exact .bind (truth rightConcludes _ _) fun holds _ => .pure (answer holds)
      · exact .pure (answer false)
  | disjunction =>
      simp only [ofExpr_disjunction]
      refine .bind (truth leftConcludes _ _) fun holds _ => ?_
      split
      · exact .pure (answer true)
      · exact .bind (truth rightConcludes _ _) fun holds _ => .pure (answer holds)
  | _ =>
      exact .bind (leftConcludes _ _ finite) fun leftValue leftFinite =>
        .bind (rightConcludes _ _ finite) fun rightValue rightFinite =>
          concludes_applyOperator _ leftFinite rightFinite

/-- An expression without calls ends if the documents that it may need do. -/
theorem concludes_ofExpr
    (needed : ∀ path, Concludes active (fun depth => ofPath depth store path) Value.IsFinite)
    {expr : Expr} (uncalled : expr.Avoids Expr.isCall) :
    ExprConcludes store active source expr := by
  induction size : sizeOf expr using Nat.strongRecOn generalizing expr with
  | _ size induction =>
      subst size
      have part {inside : Expr} (isPart : inside.Part expr) :
          ExprConcludes store active source inside :=
        induction _ isPart.sizeOf_lt (uncalled.part isPart) rfl
      intro site scope finite
      cases expr with
      | number span value => exact .of_succ (.pure (Value.inherited_isFinite.ofNumber _ value))
      | string span value => exact .of_succ (.pure (Value.inherited_isFinite.ofText value))
      | boolean span value => exact .of_succ (.pure (Value.inherited_isFinite.ofBool value))
      | null span => exact .of_succ (.pure (Value.finite_of_no_parts rfl))
      | identifier span name => exact .of_succ (concludes_lookup finite name)
      | record span fields =>
          exact concludes_record (fun field isField => part (.field isField)) _ _ finite
      | array span items =>
          refine .of_succ ?_
          simp only [ofExpr_array]
          refine .bind (.mapM fun item isItem => ?_) fun values areFinite =>
            .pure (Value.inherited_isFinite.array areFinite)
          exact part (.item (List.fst_mem_of_mem_zipIdx isItem)) _ _ finite
      | importOf span path =>
          refine .of_succ ?_
          simp only [ofExpr_importOf]
          exact .bind (concludes_liftInternal _) fun target _ => needed target
      | letIn span name value body =>
          refine .of_succ ?_
          simp only [ofExpr_letIn]
          refine .bind (part .letValue _ _ finite) fun given isFinite => ?_
          exact part .letBody _ _ (List.forall_mem_cons.mpr ⟨isFinite, finite⟩)
      | function span parameters body =>
          exact .of_succ (.pure (Value.finite_function.mpr finite))
      | conditional span condition thenBranch elseBranch =>
          refine .of_succ ?_
          simp only [ofExpr_conditional]
          refine .bind (part .condition _ _ finite) fun given _ => ?_
          unfold applyCondition
          split
          · exact part .thenBranch _ _ finite
          · exact part .elseBranch _ _ finite
          · exact .fail
      | binary span operator left right =>
          exact concludes_binary (part .left) (part .right) _ _ finite
      | unary span operator operand =>
          refine .of_succ ?_
          simp only [ofExpr_unary]
          exact .bind (part .operand _ _ finite) fun given isFinite =>
            concludes_applyUnary operator isFinite
      | access span target field =>
          refine .of_succ ?_
          simp only [ofExpr_access]
          exact .bind (part .target _ _ finite) fun given isFinite =>
            concludes_access isFinite field
      | call span callee arguments => exact absurd rfl (uncalled _ .refl)

/-! ## Documents -/

/-- The stored documents that are not being evaluated. -/
def waiting (store : Store) (active : List Text) : List Document :=
  store.documents.filter fun document => document.path ∉ active

/-- A document that is entered waits no longer. -/
theorem length_waiting_lt {document : Document} (stored : document ∈ store.documents)
    (new : document.path ∉ active) :
    (waiting store (document.path :: active)).length < (waiting store active).length := by
  have fewer : waiting store (document.path :: active) =
      (waiting store active).filter fun other => other.path ≠ document.path := by
    unfold waiting
    rw [List.filter_filter]
    congr 1
    funext other
    simp [not_or]
  rw [fewer]
  apply List.length_filter_lt_length_iff_exists.mpr
  exact ⟨document, List.mem_filter.mpr ⟨stored, by simpa using new⟩, by simp⟩

/-- The evaluation of a document as a whole ends if that of its content does. -/
theorem Conclusion.within {bodies : Nat → Evaluation Value} {path : Text} {session after : Session}
    {result : Except Failure Value} (new : path ∉ active)
    (conclusion : Conclusion (path :: active) bodies Value.IsFinite (session.enter path) result
      after) :
    ∃ last, Conclusion active (fun depth => within path (bodies depth)) Value.IsFinite session
      result last := by
  obtain ⟨ended, ⟨bound, performed⟩, isActive, finite, isGood⟩ := conclusion
  have left : (after.leave path).active = active := Session.active_leave isActive new
  cases result with
  | error failure =>
      refine ⟨after.leave path, ended, ⟨bound, fun depth atLeast => ?_⟩, left, finite, nofun⟩
      rw [perform_within, performed depth atLeast]
  | ok value =>
      refine ⟨(after.leave path).remember path value, ended, ⟨bound, fun depth atLeast => ?_⟩, left,
        List.forall_mem_cons.mpr ⟨isGood value rfl, finite⟩, isGood⟩
      rw [perform_within, performed depth atLeast]

/-- The evaluation of the content of a document. -/
def ofDocumentContent (depth : Nat) (store : Store) (document : Document) : Evaluation Value :=
  ofContent (ofExpr depth store ⟨document.path, []⟩ document.source []) document.content

theorem perform_ofPath (depth : Nat) (path : Text) (session : Session) :
    perform (ofPath depth store path) session =
      match session.value? path, store.find? path with
      | some value, _ => (.ok value, session)
      | none, none => (.error (.fault (.internal (.unknownDocument path))), session)
      | none, some document =>
          if path ∈ session.active then (.error (.error (recursionError path)), session)
          else perform (within path (ofDocumentContent depth store document)) session := by
  unfold ofPath ofDocument
  rw [perform_bind, perform_get]
  dsimp only
  cases session.value? path with
  | some value => rfl
  | none =>
      cases store.find? path with
      | none => rfl
      | some document =>
          simp only [List.contains_iff_mem]
          split
          · rfl
          · rfl

/-- The content of a document ends if the documents that it may need do. -/
theorem concludes_content {document : Document}
    (uncalled : ∀ tree, document.content = .expr tree → tree.Avoids Expr.isCall)
    (finite : ∀ value, document.content = .data value → value.IsFinite)
    (needed : ∀ path, Concludes active (fun depth => ofPath depth store path) Value.IsFinite) :
    Concludes active (fun depth => ofDocumentContent depth store document) Value.IsFinite := by
  unfold ofDocumentContent
  cases isContent : document.content with
  | data value => exact .pure (finite value isContent)
  | expr tree =>
      exact concludes_ofExpr needed (uncalled tree isContent) _ _ (List.forall_mem_nil _)

/-- A document ends if, while it is being evaluated, those that it may need do. -/
theorem concludes_ofPath_of_needed
    (uncalled : ∀ document ∈ store.documents, ∀ tree, document.content = .expr tree →
      tree.Avoids Expr.isCall)
    (finite : ∀ document ∈ store.documents, ∀ value, document.content = .data value →
      value.IsFinite)
    {path : Text}
    (needed : ∀ document ∈ store.documents, document.path = path → path ∉ active →
      ∀ other, Concludes (path :: active) (fun depth => ofPath depth store other) Value.IsFinite) :
    Concludes active (fun depth => ofPath depth store path) Value.IsFinite := by
  intro session isActive sessionFinite
  cases remembered : session.value? path with
  | some value =>
      obtain ⟨result, after, conclusion⟩ :=
        Concludes.pure (sessionFinite.value? remembered) session isActive sessionFinite
      refine ⟨result, after, conclusion.congr fun depth => ?_⟩
      rw [perform_ofPath, remembered]
      rfl
  | none =>
      cases found : store.find? path with
      | none =>
          have ended : Failure.fault (.internal (.unknownDocument path)) ≠ .fault .unending :=
            nofun
          obtain ⟨result, after, conclusion⟩ :=
            Concludes.throw ended session isActive sessionFinite
          refine ⟨result, after, conclusion.congr fun depth => ?_⟩
          rw [perform_ofPath, remembered, found]
          rfl
      | some document =>
          by_cases isNeeded : path ∈ session.active
          · have ended : Failure.error (recursionError path) ≠ .fault .unending := nofun
            obtain ⟨result, after, conclusion⟩ :=
              Concludes.throw ended session isActive sessionFinite
            refine ⟨result, after, conclusion.congr fun depth => ?_⟩
            rw [perform_ofPath, remembered, found]
            exact if_pos isNeeded
          · have stored := List.mem_of_find?_eq_some found
            have samePath : document.path = path := by simpa using List.find?_some found
            have new : path ∉ active := by rwa [← isActive]
            obtain ⟨result, after, content⟩ := concludes_content
              (fun tree => uncalled document stored tree)
              (fun value => finite document stored value) (needed document stored samePath new)
              (session.enter path) (by rw [Session.enter, isActive]) sessionFinite
            obtain ⟨last, conclusion⟩ := content.within new
            refine ⟨result, last, conclusion.congr fun depth => ?_⟩
            rw [perform_ofPath, remembered, found]
            exact if_neg isNeeded

/-- Without calls, and with finite data only, every document ends. -/
theorem concludes_ofPath
    (uncalled : ∀ document ∈ store.documents, ∀ tree, document.content = .expr tree →
      tree.Avoids Expr.isCall)
    (finite : ∀ document ∈ store.documents, ∀ value, document.content = .data value →
      value.IsFinite)
    (active : List Text) (path : Text) :
    Concludes active (fun depth => ofPath depth store path) Value.IsFinite := by
  -- The induction is on the number of documents that are not being evaluated.
  induction count : (waiting store active).length using Nat.strongRecOn
      generalizing active path with
  | _ count induction =>
      refine concludes_ofPath_of_needed uncalled finite fun document stored samePath new other => ?_
      rw [← samePath] at new
      have fewer := length_waiting_lt stored new
      rw [samePath, count] at fewer
      exact induction _ fewer _ other rfl

/-- Where no document has a call, and all data are finite, every evaluation ends.

It ends with a value or a failure whatever the imports are, from every session whose values are
finite, and whatever is being evaluated there; and it leaves such a session behind, in which the
same documents are being evaluated. -/
theorem ofPath_ends {store : Store}
    (uncalled : ∀ document ∈ store.documents, ∀ tree, document.content = .expr tree →
      tree.Avoids Expr.isCall)
    (finite : ∀ document ∈ store.documents, ∀ value, document.content = .data value →
      value.IsFinite)
    {session : Session} (sessionFinite : session.Finite) (path : Text) :
    ∃ result after, Ends store session path result after ∧ after.Finite ∧
      after.active = session.active := by
  obtain ⟨result, after, ended, ⟨bound, performed⟩, isActive, afterFinite, _⟩ :=
    concludes_ofPath uncalled finite session.active path session rfl sessionFinite
  exact ⟨result, after, ⟨ended, bound, performed bound le_rfl⟩, afterFinite, isActive⟩

/-- A document that needs itself in a branch and in the body of a function, and another one, which
needs the first. -/
def tangledStore : Store where
  documents := [
    ⟨⟨"/a", []⟩, .cairn, .expr (.record ⟨0, 0⟩ [
      (⟨0, 1⟩, "f", .function ⟨1, 1⟩ ["x"] (.importOf ⟨1, 2⟩ "a")),
      (⟨2, 3⟩, "g", .conditional ⟨2, 4⟩ (.boolean ⟨2, 3⟩ true) (.importOf ⟨3, 4⟩ "c")
        (.importOf ⟨4, 5⟩ "a"))]), 0⟩,
    ⟨⟨"/b", []⟩, .cairn,
      .expr (.letIn ⟨0, 1⟩ "x" (.importOf ⟨0, 1⟩ "a") (.importOf ⟨1, 2⟩ "b")), 1⟩,
    ⟨⟨"/c", []⟩, .json, .data (.array [.null]), 2⟩]
  imports := [
    (⟨"/a", some ⟨1, 2⟩⟩, "/a"), (⟨"/a", some ⟨3, 4⟩⟩, "/c"), (⟨"/a", some ⟨4, 5⟩⟩, "/a"),
    (⟨"/b", some ⟨0, 1⟩⟩, "/a"), (⟨"/b", some ⟨1, 2⟩⟩, "/b")]

theorem ofPath_ends_tangled :
    ∃ result after, Ends tangledStore .start "/b" result after ∧ after.Finite ∧
      after.active = [] := by
  refine ofPath_ends (by decide +kernel) ?_ Session.finite_start "/b"
  simp only [tangledStore, List.forall_mem_cons]
  refine ⟨nofun, nofun, ?_, nofun⟩
  rintro _ ⟨⟩
  refine Value.inherited_isFinite.array (List.forall_mem_singleton.mpr ?_)
  exact Value.finite_of_no_parts rfl

end Evaluation

end ConfigGraph
