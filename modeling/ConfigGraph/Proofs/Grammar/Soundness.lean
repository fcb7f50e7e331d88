import ConfigGraph.Proofs.Grammar.Stack

/-!
# The machine reads only what the grammar derives

Each step over an accepted token keeps what `Holds` says (`Holds.step`), and the machine comes to an
end with a derived tree only (`Holds.done`).
-/

namespace ConfigGraph.Grammar

open ConfigGraph.Parser

/-! ## Brackets that close -/

theorem derives_closeArray {opening closing : Token} {tokens : List Token} {items : List Item}
    (isOpening : opening.terminal = .openBracket) (complete : Members Item.tokens items tokens)
    (derives : ∀ item ∈ items, Derives AnyName .expr item.tokens item.expr)
    (isClosing : closing.terminal = .closeBracket) :
    Derives AnyName .atom (opening :: (tokens ++ [closing]))
      (.array ⟨opening.start, closing.stop⟩ (items.map Item.expr)) := by
  cases complete with
  | none => exact .arrayEmpty isOpening isClosing
  | some separated isComma =>
      rw [List.append_assoc]
      exact .array isOpening separated derives (.comma isComma) isClosing

theorem derives_closeRecord {opening closing : Token} {tokens : List Token}
    {fields : List FieldItem} (isOpening : opening.terminal = .openBrace)
    (complete : Members FieldItem.tokens fields tokens)
    (wellFormed : ∀ field ∈ fields, field.WellFormed)
    (derives : ∀ field ∈ fields, Derives AnyName .expr field.values field.value)
    (isClosing : closing.terminal = .closeBrace) :
    Derives AnyName .atom (opening :: (tokens ++ [closing]))
      (.record ⟨opening.start, closing.stop⟩ (fields.map FieldItem.field)) := by
  cases complete with
  | none => exact .recordEmpty isOpening isClosing
  | some separated isComma =>
      rw [List.append_assoc]
      exact .record isOpening separated wellFormed derives (.comma isComma) isClosing

/-- A property of all members so far holds of one more. -/
theorem forall_mem_append_singleton {α : Type} {property : α → Prop} {members : List α} {last : α}
    (all : ∀ member ∈ members, property member) (one : property last) :
    ∀ member ∈ members ++ [last], property member := by
  intro member isMember
  rcases List.mem_append.mp isMember with before | isLast
  · exact all member before
  · cases List.mem_singleton.mp isLast
    exact one

/-! ## The steps -/

theorem Stack.of_stepOperand {frames : List Frame} {tokens : List Token} {token : Token}
    {next : State} (stack : Stack frames tokens)
    (accepted : token.terminal ∈ (State.mk .operand frames).accepted)
    (moves : stepOperand frames token = .next next) : Holds next (tokens ++ [token]) := by
  unfold stepOperand at moves
  simp only [Outcome.operand] at moves
  split at moves
  case h_1 is => cases moves; exact .operator stack (.plain (.number is))
  case h_2 is => cases moves; exact .operator stack (.plain (.string is))
  case h_3 is => cases moves; exact .operator stack (.plain (.identifier is trivial))
  case h_4 is => cases moves; exact .operator stack (.plain (.trueWord is))
  case h_5 is => cases moves; exact .operator stack (.plain (.falseWord is))
  case h_6 is => cases moves; exact .operator stack (.plain (.nullWord is))
  case h_7 is => cases moves; exact .importPath stack is
  case h_8 is =>
    cases moves
    rw [is] at accepted
    exact .letName stack (fits_of_accepted (.inl rfl) accepted) is
  case h_9 is =>
    cases moves
    rw [is] at accepted
    exact @Holds.parameters _ tokens [] token stack
      (fits_of_accepted (.inr (.inl rfl)) accepted) is (by simp)
  case h_10 is =>
    cases moves
    rw [is] at accepted
    exact .operand (.condition stack (fits_of_accepted (.inr (.inr rfl)) accepted) is)
  case h_11 is => cases moves; exact .operand (.unary stack is)
  case h_12 is => cases moves; exact .operand (.group stack is)
  case h_13 is => cases moves; exact .operand (@Stack.array _ _ _ _ [] stack is .none (by simp))
  case h_14 is =>
    cases moves
    exact .fieldName (@Stack.record _ _ _ _ [] stack is .none (by simp) (by simp))
  case h_15 is =>
    cases moves
    cases stack with
    | array stack isOpening complete derives =>
        rw [List.append_assoc]
        exact .operator stack (.plain (derives_closeArray isOpening complete derives is))
  case h_16 is =>
    cases moves
    -- The frame has no arguments, but those of `Stack` come as the trees of items.
    generalize empty : ([] : List Expr) = arguments at stack
    cases stack with
    | call stack calleeDerives isOpening complete _ =>
        cases List.map_eq_nil_iff.mp empty.symm
        cases complete.nil
        rw [List.append_assoc, List.append_assoc]
        exact .operator stack (.callEmpty calleeDerives isOpening is)
  case h_17 => cases moves

theorem Stack.of_stepEnd {frames : List Frame} {before inside : List Token} {expr : Expr}
    {token : Token} {next : State} (stack : Stack frames before)
    (derivation : Derives AnyName .expr inside expr)
    (moves : stepEnd expr frames token = .next next) :
    Holds next (before ++ inside ++ [token]) := by
  unfold stepEnd at moves
  simp only [Outcome.operand] at moves
  split at moves
  case h_2 is =>
    cases moves
    cases stack with
    | letValue stack fits isLet isName isEquals =>
        have body := Stack.letBody stack fits isLet isName isEquals derivation is
        simpa using Holds.operand body
  case h_3 is =>
    cases moves
    cases stack with
    | condition stack fits isIf =>
        have branch := Stack.thenBranch stack fits isIf derivation is
        simpa using Holds.operand branch
  case h_4 is =>
    cases moves
    cases stack with
    | thenBranch stack fits isIf conditionDerives isThen =>
        have branch := Stack.elseBranch stack fits isIf conditionDerives isThen derivation is
        simpa using Holds.operand branch
  case h_5 is =>
    cases moves
    cases stack with
    | group stack isOpening =>
        have group := Derives.plain (.group isOpening derivation is)
        simpa using @Holds.operator _ _ _ _ false stack group
  case h_6 is =>
    cases moves
    cases stack with
    | @call _ _ _ _ _ _ arguments stack calleeDerives isOpening complete derives =>
        have more := Stack.call stack calleeDerives isOpening
          (.some (complete.separated ⟨inside, expr⟩) is)
          (forall_mem_append_singleton derives derivation)
        simpa using Holds.operand more
  case h_7 is =>
    cases moves
    cases stack with
    | call stack calleeDerives isOpening complete derives =>
        have call := Derives.call calleeDerives isOpening (complete.separated ⟨inside, expr⟩)
          (forall_mem_append_singleton derives derivation) is
        simpa using @Holds.operator _ _ _ _ false stack call
  case h_8 is =>
    cases moves
    cases stack with
    | array stack isOpening complete derives =>
        have more := Stack.array stack isOpening (.some (complete.separated ⟨inside, expr⟩) is)
          (forall_mem_append_singleton derives derivation)
        simpa using Holds.operand more
  case h_9 is =>
    cases moves
    cases stack with
    | array stack isOpening complete derives =>
        have array := Derives.plain (.array isOpening (complete.separated ⟨inside, expr⟩)
          (forall_mem_append_singleton derives derivation) .nothing is)
        simpa using @Holds.operator _ _ _ _ false stack array
  case h_10 is =>
    cases moves
    cases stack with
    | @field _ _ _ _ name equals _ stack isOpening complete wellFormed derives isName isEquals =>
        have more := Stack.record stack isOpening
          (.some (complete.separated ⟨name, equals, inside, expr⟩) is)
          (forall_mem_append_singleton wellFormed ⟨isName, isEquals⟩)
          (forall_mem_append_singleton derives derivation)
        simpa [FieldItem.tokens, FieldItem.field] using Holds.fieldName more
  case h_11 is =>
    cases moves
    cases stack with
    | @field _ _ _ _ name equals _ stack isOpening complete wellFormed derives isName isEquals =>
        have record := Derives.plain (.record isOpening
          (complete.separated ⟨name, equals, inside, expr⟩)
          (forall_mem_append_singleton wellFormed ⟨isName, isEquals⟩)
          (forall_mem_append_singleton derives derivation) .nothing is)
        simpa [FieldItem.tokens, FieldItem.field] using @Holds.operator _ _ _ _ false stack record
  all_goals cases moves

/-- The operand of a level to the left of an operator, inside of frames that fit. -/
theorem Stack.leftOperand {frames : List Frame} {before operands : List Token} {operand : Expr}
    (stack : Stack frames before) (derivation : Derives AnyName .primary operands operand)
    {least : Nat} (atMost : least ≤ unaryLevel) :
    ∃ others inside, before ++ operands = others ++ inside ∧
      Stack (closeOperators least operand frames).2 others ∧
      Fits least (closeOperators least operand frames).2 ∧
      Derives AnyName (.level least) inside (closeOperators least operand frames).1 :=
  stack.of_closeOperators (.operand derivation) (fits_unaryLevel frames) atMost (Nat.le_refl _)

/-- The expression that ends with an operand, when all that it closes is closed. -/
theorem Stack.wholeExpr {frames : List Frame} {before operands : List Token} {operand : Expr}
    (stack : Stack frames before) (derivation : Derives AnyName .primary operands operand) :
    ∃ others whole, before ++ operands = others ++ whole ∧
      Stack (closeExpr operand frames).2 others ∧
      Derives AnyName .expr whole (closeExpr operand frames).1 := by
  obtain ⟨others, inside, same, outer, fits, left⟩ :=
    @Stack.leftOperand _ _ _ _ stack derivation 0 (by decide)
  have closed := outer.of_closeExpr (.operation left) fits
  rw [closeExpr_closeOperators, ← same] at closed
  exact closed

theorem Stack.infixed {frames : List Frame} {before operands : List Token} {operand : Expr}
    {token : Token} {level : Nat} (stack : Stack frames before)
    (derivation : Derives AnyName .primary operands operand) (genuine : Genuine token)
    (terminal : operatorTerminals[level]? = some token.terminal)
    (noComparison : level ≠ comparisonLevel) :
    Holds ⟨.operand, .binary (BinaryOperator.ofLexeme token.lexeme)
        (closeOperators (BinaryOperator.ofLexeme token.lexeme).level operand frames).1 ::
        (closeOperators (BinaryOperator.ofLexeme token.lexeme).level operand frames).2⟩
      (before ++ operands ++ [token]) := by
  rw [level_ofLexeme genuine terminal]
  have below := level_lt_of_operatorTerminals terminal
  obtain ⟨others, inside, same, outer, fits, left⟩ :=
    stack.leftOperand derivation (Nat.le_of_lt below)
  have sameLevel : leftLevel level = level := if_neg noComparison
  rw [same, List.append_assoc]
  exact .operand (.binary outer fits genuine terminal (by rw [sameLevel]; exact left))

/-- A comparison stands inside of no other comparison. -/
theorem Stack.compared {frames : List Frame} {before operands : List Token} {operand : Expr}
    {token : Token} {next : State} (stack : Stack frames before)
    (derivation : Derives AnyName .primary operands operand) (genuine : Genuine token)
    (isComparison : token.terminal = .comparison)
    (moves : stepOperator operand frames token = .next next) :
    Holds next (before ++ operands ++ [token]) := by
  have terminal : operatorTerminals[comparisonLevel]? = some token.terminal := by
    rw [isComparison]
    rfl
  have isLevel := level_ofLexeme genuine terminal
  obtain ⟨others, inside, same, outer, fits, left⟩ :=
    @Stack.leftOperand _ _ _ _ stack derivation 4 (by decide)
  unfold stepOperator at moves
  simp only [isComparison, isLevel] at moves
  rw [same, List.append_assoc]
  -- Its left operand is closed one level tighter, so that a comparison before it is still open.
  generalize closeOperators 4 operand frames = closed at *
  obtain ⟨whole, around⟩ := closed
  dsimp only at outer fits left moves
  cases around with
  | nil =>
      cases moves
      exact .operand (.binary outer (fits_nil _) genuine terminal left)
  | cons frame around =>
      have looser := fits (by decide) frame around rfl
      cases frame with
      | unary _ _ => cases looser
      | binary other left =>
          dsimp only at moves
          by_cases chains : other.level = comparisonLevel
          · rw [if_pos chains] at moves
            cases moves
          · rw [if_neg chains] at moves
            cases moves
            refine .operand (.binary outer (fits_cons _ ?_) genuine terminal ‹_›)
            simp only [Frame.bindsAt, decide_eq_false_iff_not] at looser ⊢
            unfold comparisonLevel at *
            omega
      | _ =>
          cases moves
          exact .operand (.binary outer (fits_cons _ rfl) genuine terminal left)

theorem Stack.of_stepOperator {frames : List Frame} {before operands : List Token} {operand : Expr}
    {token : Token} {next : State} (stack : Stack frames before)
    (derivation : Derives AnyName .primary operands operand) (genuine : Genuine token)
    (moves : stepOperator operand frames token = .next next) :
    Holds next (before ++ operands ++ [token]) := by
  have ends (moves : stepEnd (closeExpr operand frames).1
      (closeExpr operand frames).2 token = .next next) :
      Holds next (before ++ operands ++ [token]) := by
    obtain ⟨others, whole, same, around, expr⟩ := stack.wholeExpr derivation
    rw [same]
    exact around.of_stepEnd expr moves
  cases is : token.terminal with
  | comparison => exact stack.compared derivation genuine is moves
  | dot =>
      simp only [stepOperator, is] at moves
      cases moves
      rw [List.append_assoc]
      exact .accessName stack derivation is
  | openParen =>
      simp only [stepOperator, is] at moves
      cases moves
      rw [List.append_assoc]
      exact .operand (@Stack.call _ _ _ _ _ _ [] stack derivation is .none (by simp))
  | product =>
      simp only [stepOperator, is] at moves
      cases moves
      exact @Stack.infixed _ _ _ _ _ 5 stack derivation genuine (by rw [is]; rfl) (by decide)
  | sum =>
      simp only [stepOperator, is] at moves
      cases moves
      exact @Stack.infixed _ _ _ _ _ 4 stack derivation genuine (by rw [is]; rfl) (by decide)
  | conjunction =>
      simp only [stepOperator, is] at moves
      cases moves
      exact @Stack.infixed _ _ _ _ _ 2 stack derivation genuine (by rw [is]; rfl) (by decide)
  | disjunction =>
      simp only [stepOperator, is] at moves
      cases moves
      exact @Stack.infixed _ _ _ _ _ 1 stack derivation genuine (by rw [is]; rfl) (by decide)
  | merge =>
      simp only [stepOperator, is] at moves
      cases moves
      exact @Stack.infixed _ _ _ _ _ 0 stack derivation genuine (by rw [is]; rfl) (by decide)
  | equals =>
      simp only [stepOperator, is] at moves
      cases moves
  | _ =>
      simp only [stepOperator, is] at moves
      exact ends moves

/-- A step over an accepted token keeps what the state stands for. -/
theorem Holds.step {state next : State} {tokens : List Token} {token : Token}
    (holds : Holds state tokens) (genuine : Genuine token)
    (accepted : token.terminal ∈ state.accepted) (moves : state.step token = .next next) :
    Holds next (tokens ++ [token]) := by
  cases holds with
  | operand stack => exact stack.of_stepOperand accepted moves
  | operator stack derivation => exact stack.of_stepOperator derivation genuine moves
  | accessName stack derivation isDot =>
      simp only [State.step] at moves
      split at moves
      case h_1 isName =>
        cases moves
        simpa using @Holds.operator _ _ _ _ true stack (.access derivation isDot (.inl isName))
      case h_2 isString =>
        cases moves
        simpa using @Holds.operator _ _ _ _ true stack (.access derivation isDot (.inr isString))
      case h_3 => cases moves
  | letName stack fits isLet =>
      simp only [State.step] at moves
      split at moves
      case h_1 isName =>
        cases moves
        simpa using Holds.letEquals stack fits isLet isName
      case h_2 => cases moves
  | letEquals stack fits isLet isName =>
      simp only [State.step] at moves
      split at moves
      case h_1 isEquals =>
        cases moves
        simpa using Holds.operand (.letValue stack fits isLet isName isEquals)
      case h_2 => cases moves
  | @parameters frames before parameters funWord stack fits isFun names =>
      simp only [State.step] at moves
      split at moves
      case h_1 isName =>
        cases moves
        have more := Holds.parameters stack fits isFun (forall_mem_append_singleton names isName)
        simpa using more
      case h_2 isArrow =>
        cases moves
        simpa using Holds.operand (.functionBody stack fits isFun names isArrow)
      case h_3 => cases moves
  | importPath stack isImport =>
      simp only [State.step, Outcome.operand] at moves
      split at moves
      case h_1 isString =>
        cases moves
        simpa using @Holds.operator _ _ _ _ false stack (.plain (.importOf isImport isString))
      case h_2 => cases moves
  | fieldName stack =>
      simp only [State.step, Outcome.operand] at moves
      split at moves
      case h_1 isName =>
        cases moves
        exact .fieldEquals stack (.inl isName)
      case h_2 isString =>
        cases moves
        exact .fieldEquals stack (.inr isString)
      case h_3 isClosing =>
        cases moves
        cases stack with
        | record stack isOpening complete wellFormed derives =>
            have record := Derives.plain
              (derives_closeRecord isOpening complete wellFormed derives isClosing)
            simpa using @Holds.operator _ _ _ _ false stack record
      case h_4 => cases moves
  | fieldEquals stack isName =>
      simp only [State.step] at moves
      split at moves
      case h_1 isEquals =>
        cases moves
        cases stack with
        | record stack isOpening complete wellFormed derives =>
            simpa using Holds.operand
              (.field stack isOpening complete wellFormed derives isName isEquals)
      case h_2 => cases moves

/-! ## The end of a document -/

theorem stepEnd_done {expr tree : Expr} {frames : List Frame} {token : Token}
    (done : stepEnd expr frames token = .done tree) :
    frames = [] ∧ token.terminal = .finish ∧ tree = expr := by
  unfold stepEnd at done
  simp only [Outcome.operand] at done
  split at done
  case h_1 is =>
    cases done
    exact ⟨rfl, is, rfl⟩
  all_goals cases done

theorem stepOperator_done {operand tree : Expr} {frames : List Frame} {token : Token}
    (done : stepOperator operand frames token = .done tree) :
    (closeExpr operand frames).2 = [] ∧ token.terminal = .finish ∧
      tree = (closeExpr operand frames).1 := by
  unfold stepOperator at done
  dsimp only at done
  split at done
  case h_8 =>
    -- A comparison is an operator or chained; both are no end.
    split at done
    · split at done <;> cases done
    · cases done
  case h_10 => exact stepEnd_done done
  all_goals cases done

theorem stepOperand_ne_done {tree : Expr} {frames : List Frame} {token : Token} :
    stepOperand frames token ≠ .done tree := by
  intro done
  unfold stepOperand at done
  simp only [Outcome.operand] at done
  split at done <;> cases done

/-- The machine is done at the end of the tokens only, and with a tree that they derive. -/
theorem Holds.done {state : State} {tokens : List Token} {token : Token} {tree : Expr}
    (holds : Holds state tokens) (done : state.step token = .done tree) :
    token.terminal = .finish ∧ Derives AnyName .expr tokens tree := by
  cases holds with
  | operator stack derivation =>
      obtain ⟨allClosed, isFinish, rfl⟩ := stepOperator_done done
      obtain ⟨others, whole, same, around, expr⟩ := stack.wholeExpr derivation
      rw [allClosed] at around
      cases around
      rw [same]
      exact ⟨isFinish, expr⟩
  | operand _ => exact absurd done stepOperand_ne_done
  | _ =>
      simp only [State.step, Outcome.operand] at done
      split at done <;> cases done

end ConfigGraph.Grammar
