import ConfigGraph.Proofs.Evaluation.Perform
import ConfigGraph.Proofs.Value.Depth

/-!
# Levels of an evaluation

The evaluation of an expression comes to that of other expressions and of documents, with a depth
that is one less.  `level` is what it does with these, whatever they are.  A relation that holds of
them and that sequences of parts keep (`Congruence`) so holds of the whole (`Congruence.level`).
For one, more depth changes nothing where the depth suffices (`lasts_ofPath`).
-/

namespace ConfigGraph.Evaluation

variable {α β : Type}

/-! ## One level -/

/-- One level of the evaluation of an expression, by the evaluation of other expressions at their
places and of documents that are needed. -/
def level (depth : Nat) (store : Store) (inner : Site → Source → Scope → Expr → Evaluation Value)
    (needed : Text → Evaluation Value) (site : Site) (source : Source) (scope : Scope)
    (expr : Expr) : Evaluation Value :=
  let part (number : Nat) (expr : Expr) : Evaluation Value :=
    inner (site.step number) source scope expr
  match expr with
  | .number _ value => return .ofNumber site.origin value
  | .string _ value => return .text value
  | .boolean _ value => return .bool value
  | .null _ => return .null
  | .identifier span name => lookup source span scope name
  | .record _ fields => do
      let fields ← fields.zipIdx.foldlM (fun known field => do
        if (Fields.get? known (.text field.1.2.1)).isSome then
          failWith source field.1.1 .duplicateField [("name", field.1.2.1)]
        return known ++ [(.text field.1.2.1, ← part field.2 field.1.2.2)]) []
      return .record fields
  | .array _ items => do
      let items ← items.zipIdx.mapM fun item => part item.2 item.1
      return .array items
  | .importOf span _ => do
      let target ← liftInternal (store.target ⟨source.path, some span⟩)
      needed target
  | .letIn _ name value body => do
      let value ← part 0 value
      inner (site.step 1) source ((name, value) :: scope) body
  | .function _ parameters body => return .function site.origin parameters body scope source
  | .conditional _ condition thenBranch elseBranch => do
      match ← part 0 condition with
      | .bool true => part 1 thenBranch
      | .bool false => part 2 elseBranch
      | other =>
          failWith source condition.span .conditionNotBoolean [("provided", other.typeName)]
  | .binary span operator left right =>
      match operator with
      | .conjunction => do
          if ← logicalOperand source left.span operator (← part 0 left) then
            return .bool (← logicalOperand source right.span operator (← part 1 right))
          else return .bool false
      | .disjunction => do
          if ← logicalOperand source left.span operator (← part 0 left) then return .bool true
          else return .bool (← logicalOperand source right.span operator (← part 1 right))
      | operator => do
          let left ← part 0 left
          let right ← part 1 right
          applyOperator depth site source span operator left right
  | .unary span operator operand => do
      let operand ← part 0 operand
      applyUnary site source span operator operand
  | .access span target field => do access source span (← part 0 target) field
  | .call span callee arguments => do
      match ← part 0 callee with
      | .function _ parameters body scope home =>
          if arguments.length ≠ parameters.length then
            fail source span .argumentCountMismatch
              [("expected", .int parameters.length), ("provided", .int arguments.length)]
          else
            let values ← arguments.zipIdx.mapM fun argument => part (argument.2 + 2) argument.1
            inner (site.step 1) home (bind parameters values scope) body
      | other => failWith source span .notAFunction [("provided", other.typeName)]

theorem ofExpr_succ (depth : Nat) (store : Store) (site : Site) (source : Source) (scope : Scope)
    (expr : Expr) :
    ofExpr (depth + 1) store site source scope expr =
      level depth store (ofExpr depth store) (ofTarget depth store) site source scope expr := by
  cases expr with
  | binary span operator left right => cases operator <;> rfl
  | _ => rfl

/-! ## Parts that no session matters to -/

/-- A part that is a value or a failure in every session. -/
inductive Fixed : Evaluation α → Prop where
  | value {value : α} : Fixed (pure value)
  | failure {failure : Failure} : Fixed (throw failure)

theorem Fixed.perform_eq {part : Evaluation α} (fixed : Fixed part) :
    ∃ result, ∀ session, perform part session = (result, session) := by
  cases fixed with
  | value => exact ⟨_, fun _ => rfl⟩
  | failure => exact ⟨_, fun _ => rfl⟩

theorem fixed_fail (source : Source) (span : Span) (code : ErrorCode) (details : Details) :
    Fixed (fail source span code details : Evaluation α) := by
  unfold fail
  split <;> exact .failure

theorem fixed_liftInternal (result : Except InternalFault α) : Fixed (liftInternal result) := by
  cases result with
  | ok value => exact .value
  | error fault => exact .failure

theorem fixed_logicalOperand (source : Source) (span : Span) (operator : BinaryOperator)
    (value : Value) : Fixed (logicalOperand source span operator value) := by
  unfold logicalOperand
  split
  · exact .value
  · exact fixed_fail _ _ _ _

theorem fixed_lookup (source : Source) (span : Span) (scope : Scope) (name : Text) :
    Fixed (lookup source span scope name) := by
  unfold lookup
  split
  · exact .value
  · exact fixed_fail _ _ _ _

theorem fixed_access (source : Source) (span : Span) (target : Value) (field : Text) :
    Fixed (access source span target field) := by
  unfold access
  split
  · exact fixed_fail _ _ _ _
  · split
    · exact .value
    · exact fixed_fail _ _ _ _

theorem fixed_applyUnary (site : Site) (source : Source) (span : Span) (operator : UnaryOperator)
    (operand : Value) : Fixed (applyUnary site source span operator operand) := by
  unfold applyUnary
  split
  · exact .value
  · exact fixed_fail _ _ _ _

theorem fixed_applyOperator (depth : Nat) (site : Site) (source : Source) (span : Span)
    (operator : BinaryOperator) (left right : Value) :
    Fixed (applyOperator depth site source span operator left right) := by
  unfold applyOperator
  split
  · exact .value
  · unfold failOperator
    split
    · exact .failure
    · exact .failure
    · exact fixed_fail _ _ _ _
    · split
      · exact .failure
      · exact fixed_fail _ _ _ _

/-! ## Parts that depth does not matter to -/

/-- The second part does what the first one does, unless that lacks depth. -/
def Lasts (first second : Evaluation α) : Prop :=
  ∀ session, (perform first session).1 ≠ .error (.fault .unending) →
    perform second session = perform first session

theorem Lasts.refl (part : Evaluation α) : Lasts part part := fun _ _ => rfl

theorem lasts_unending (part : Evaluation α) : Lasts unending part :=
  fun _ ended => absurd rfl ended

/-- A failure other than the lack of depth is one whatever the part was to give. -/
theorem ended_of_error {failure : Failure}
    (ended : (.error failure : Except Failure α) ≠ .error (.fault .unending)) :
    (.error failure : Except Failure β) ≠ .error (.fault .unending) :=
  fun unending => ended (congrArg Except.error (Except.error.inj unending))

theorem Lasts.bind {first second : Evaluation α} {next later : α → Evaluation β}
    (lasts : Lasts first second) (nextLasts : ∀ value, Lasts (next value) (later value)) :
    Lasts (first >>= next) (second >>= later) := by
  intro session ended
  have same := lasts session
  rw [perform_bind] at ended
  rw [perform_bind, perform_bind]
  rcases performed : perform first session with ⟨failure | value, after⟩
  · rw [performed] at ended same
    rw [same (ended_of_error ended)]
  · rw [performed] at ended same
    rw [same nofun]
    exact nextLasts value after ended

theorem lasts_applyOperator (depth : Nat) (site : Site) (source : Source) (span : Span)
    (operator : BinaryOperator) (left right : Value) :
    Lasts (applyOperator depth site source span operator left right)
      (applyOperator (depth + 1) site source span operator left right) := by
  intro session ended
  unfold applyOperator at ended ⊢
  rw [BinaryOperator.apply_succ]
  intro unending
  rw [unending] at ended
  exact ended rfl

/-! ## Relations that sequences of parts keep -/

/-- A relation of a part to what it is at each depth.  It holds of parts that no session matters to,
and sequences of parts keep it. -/
structure Congruence (depth : Nat)
    (related : (α : Type) → Evaluation α → (Nat → Evaluation α) → Prop) : Prop where
  fixed : ∀ {α : Type} {parts : Nat → Evaluation α}, (∀ other, Fixed (parts other)) →
    (∀ other, Lasts (parts other) (parts (other + 1))) → related α (parts depth) parts
  bind : ∀ {α β : Type} {part : Evaluation α} {parts : Nat → Evaluation α}
    {next : α → Evaluation β} {nexts : Nat → α → Evaluation β}, related α part parts →
    (∀ value, related β (next value) fun other => nexts other value) →
    related β (part >>= next) fun other => parts other >>= nexts other

namespace Congruence

variable {depth : Nat} {related : (α : Type) → Evaluation α → (Nat → Evaluation α) → Prop}

theorem constant (congruence : Congruence depth related) {part : Evaluation α}
    (fixed : Fixed part) : related α part fun _ => part :=
  congruence.fixed (fun _ => fixed) fun _ => .refl part

theorem foldlM (congruence : Congruence depth related) {step : β → α → Evaluation β}
    {steps : Nat → β → α → Evaluation β}
    (each : ∀ state item, related β (step state item) fun other => steps other state item)
    (items : List α) (state : β) :
    related β (items.foldlM step state) fun other => items.foldlM (steps other) state := by
  induction items generalizing state with
  | nil => exact congruence.constant .value
  | cons item items induction =>
      simp only [List.foldlM_cons]
      exact congruence.bind (each state item) induction

theorem mapM (congruence : Congruence depth related) {transform : α → Evaluation β}
    {transforms : Nat → α → Evaluation β}
    (each : ∀ item, related β (transform item) fun other => transforms other item)
    (items : List α) :
    related (List β) (items.mapM transform) fun other => items.mapM (transforms other) := by
  induction items with
  | nil => exact congruence.constant .value
  | cons item items induction =>
      simp only [List.mapM_cons]
      refine congruence.bind (each item) fun image => congruence.bind induction fun images => ?_
      exact congruence.constant .value

variable {store : Store} {inner : Site → Source → Scope → Expr → Evaluation Value}
  {inners : Nat → Site → Source → Scope → Expr → Evaluation Value}
  {needed : Text → Evaluation Value} {neededs : Nat → Text → Evaluation Value}

/-- What holds of the evaluations of other expressions and of documents holds of a level above. -/
theorem level (congruence : Congruence depth related)
    (innerRelated : ∀ site source scope expr,
      related Value (inner site source scope expr) fun other => inners other site source scope expr)
    (neededRelated : ∀ path, related Value (needed path) fun other => neededs other path)
    (site : Site) (source : Source) (scope : Scope) (expr : Expr) :
    related Value (Evaluation.level depth store inner needed site source scope expr) fun other =>
      Evaluation.level other store (inners other) (neededs other) site source scope expr := by
  have truth (span : Span) (operator : BinaryOperator) (number : Nat) (operand : Expr) :
      related Bool (inner (site.step number) source scope operand >>= fun value =>
        logicalOperand source span operator value) fun other =>
          inners other (site.step number) source scope operand >>= fun value =>
            logicalOperand source span operator value :=
    congruence.bind (innerRelated _ _ _ _) fun value =>
      congruence.constant (fixed_logicalOperand _ _ _ value)
  cases expr with
  | number | string | boolean | null | function => exact congruence.constant .value
  | identifier span name => exact congruence.constant (fixed_lookup _ _ _ _)
  | record span fields =>
      refine congruence.bind (congruence.foldlM (fun known field => ?_) _ _) fun fields =>
        congruence.constant .value
      have extended := congruence.bind (innerRelated (site.step field.2) source scope field.1.2.2)
        fun value => congruence.constant (@Fixed.value _ (known ++ [(.text field.1.2.1, value)]))
      split
      · exact congruence.bind (congruence.constant (fixed_fail _ _ _ _)) fun _ => extended
      · exact extended
  | array span items =>
      refine congruence.bind (congruence.mapM (fun item => ?_) _) fun items =>
        congruence.constant .value
      exact innerRelated _ _ _ _
  | importOf span path =>
      exact congruence.bind (congruence.constant (fixed_liftInternal _)) neededRelated
  | letIn span name value body =>
      exact congruence.bind (innerRelated _ _ _ _) fun given => innerRelated _ _ _ _
  | conditional span condition thenBranch elseBranch =>
      refine congruence.bind (innerRelated _ _ _ _) fun given => ?_
      split
      · exact innerRelated _ _ _ _
      · exact innerRelated _ _ _ _
      · exact congruence.constant (fixed_fail _ _ _ _)
  | binary span operator left right =>
      cases operator with
      | conjunction =>
          simp only [Evaluation.level, ← bind_assoc]
          refine congruence.bind (truth left.span .conjunction 0 left) fun holds => ?_
          split
          · exact congruence.bind (truth right.span .conjunction 1 right) fun holds =>
              congruence.constant .value
          · exact congruence.constant .value
      | disjunction =>
          simp only [Evaluation.level, ← bind_assoc]
          refine congruence.bind (truth left.span .disjunction 0 left) fun holds => ?_
          split
          · exact congruence.constant .value
          · exact congruence.bind (truth right.span .disjunction 1 right) fun holds =>
              congruence.constant .value
      | _ =>
          refine congruence.bind (innerRelated _ _ _ _) fun leftValue => ?_
          refine congruence.bind (innerRelated _ _ _ _) fun rightValue => ?_
          exact congruence.fixed (fun other => fixed_applyOperator other _ _ _ _ _ _)
            fun other => lasts_applyOperator other _ _ _ _ _ _
  | unary span operator operand =>
      exact congruence.bind (innerRelated _ _ _ _) fun given =>
        congruence.constant (fixed_applyUnary _ _ _ _ given)
  | access span target field =>
      exact congruence.bind (innerRelated _ _ _ _) fun given =>
        congruence.constant (fixed_access _ _ given _)
  | call span callee arguments =>
      refine congruence.bind (innerRelated _ _ _ _) fun given => ?_
      cases given with
      | function origin parameters body closure home =>
          dsimp only
          split
          · exact congruence.constant (fixed_fail _ _ _ _)
          · refine congruence.bind (congruence.mapM (fun argument => ?_) _) fun values => ?_
            · exact innerRelated _ _ _ _
            · exact innerRelated _ _ _ _
      | _ => exact congruence.constant (fixed_fail _ _ _ _)

end Congruence

/-! ## More depth -/

theorem Lasts.trans {first second third : Evaluation α} (lasts : Lasts first second)
    (further : Lasts second third) : Lasts first third := by
  intro session ended
  have same := lasts session ended
  rw [further session (by rw [same]; exact ended), same]

/-- Where each depth lasts to the next one it lasts to all that are larger. -/
theorem lasts_of_le {parts : Nat → Evaluation α}
    (lasts : ∀ depth, Lasts (parts depth) (parts (depth + 1))) {depth larger : Nat}
    (atLeast : depth ≤ larger) : Lasts (parts depth) (parts larger) := by
  induction atLeast with
  | refl => exact .refl _
  | step _ induction => exact induction.trans (lasts _)

theorem Lasts.within {first second : Evaluation Value} (lasts : Lasts first second) (path : Text) :
    Lasts (within path first) (within path second) := by
  intro session ended
  have same := lasts (session.enter path)
  rw [perform_within] at ended
  rw [perform_within, perform_within]
  rcases performed : perform first (session.enter path) with ⟨failure | value, after⟩
  · rw [performed] at ended same
    rw [same ended]
  · rw [performed] at same
    rw [same nofun]

theorem lasts_ofContent {first second : Expr → Evaluation Value}
    (lasts : ∀ expr, Lasts (first expr) (second expr)) (content : Content) :
    Lasts (ofContent first content) (ofContent second content) := by
  cases content with
  | data value => exact .refl _
  | expr expr => exact lasts expr

theorem lasts_ofDocument {store : Store} {first second : Document → Expr → Evaluation Value}
    (lasts : ∀ document expr, Lasts (first document expr) (second document expr)) (path : Text) :
    Lasts (ofDocument store first path) (ofDocument store second path) := by
  refine .bind (.refl get) fun session => ?_
  split
  · exact .refl _
  · split
    · exact .refl _
    · split
      · exact .refl _
      · exact (lasts_ofContent (lasts _) _).within path

theorem congruence_lasts (depth : Nat) :
    Congruence depth fun _ _ parts => Lasts (parts depth) (parts (depth + 1)) :=
  ⟨fun _ lasts => lasts depth, fun lasts nextLasts => lasts.bind nextLasts⟩

theorem lasts_ofExpr (depth : Nat) (store : Store) (site : Site) (source : Source) (scope : Scope)
    (expr : Expr) :
    Lasts (ofExpr depth store site source scope expr)
      (ofExpr (depth + 1) store site source scope expr) := by
  induction depth generalizing site source scope expr with
  | zero => exact lasts_unending _
  | succ depth induction =>
      rw [ofExpr_succ, ofExpr_succ (depth + 1)]
      exact @Congruence.level depth _ store (ofExpr depth store) (fun other => ofExpr other store)
        (ofTarget depth store) (fun other => ofTarget other store) (congruence_lasts depth)
        induction (lasts_ofDocument fun _ => induction _ _ _) site source scope expr

/-- Evaluating a document with more depth than suffices changes nothing. -/
theorem lasts_ofPath (store : Store) (path : Text) {depth larger : Nat} (atLeast : depth ≤ larger) :
    Lasts (ofPath depth store path) (ofPath larger store path) :=
  @lasts_of_le _ (fun depth => ofPath depth store path)
    (fun depth => lasts_ofDocument (fun _ => lasts_ofExpr depth store _ _ _) path) _ _ atLeast

end ConfigGraph.Evaluation
