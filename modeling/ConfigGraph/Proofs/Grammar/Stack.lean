import ConfigGraph.Proofs.Grammar.Frame

/-!
# What the machine has read

`Stack` says which tokens the open frames stand for, and `Holds` the same of a whole state: the
tokens that were read are those of the frames and then those of what is complete inside of them.
The frames that an operator or the end of an expression closes leave such a state behind.
-/

namespace ConfigGraph.Grammar

open ConfigGraph.Parser

/-- Every name is taken for an identifier. -/
def AnyName (_ : Text) : Prop := True

/-- Members behind which another one may come: none, or some and a comma. -/
inductive Members {α : Type} (tokensOf : α → List Token) : List α → List Token → Prop where
  | none : Members tokensOf [] []
  | some {members : List α} {tokens : List Token} {comma : Token} :
      Separated tokensOf members tokens →
      comma.terminal = .comma →
      Members tokensOf members (tokens ++ [comma])

theorem Members.separated {α : Type} {tokensOf : α → List Token} {members : List α}
    {tokens : List Token} (complete : Members tokensOf members tokens) (last : α) :
    Separated tokensOf (members ++ [last]) (tokens ++ tokensOf last) := by
  cases complete with
  | none => exact .single last
  | some separated isComma =>
      rw [List.append_assoc, List.singleton_append]
      exact .more last separated isComma

theorem Members.nil {α : Type} {tokensOf : α → List Token} {tokens : List Token}
    (complete : Members tokensOf [] tokens) : tokens = [] := by
  cases complete with
  | none => rfl
  | some separated _ => cases separated.ne_nil rfl

/-- The tokens that open frames stand for, from the start of the document. -/
inductive Stack : List Frame → List Token → Prop where
  | nil : Stack [] []
  | unary {frames : List Frame} {before : List Token} {operator : Token} :
      Stack frames before →
      operator.terminal = .unary →
      Stack (.unary operator.start (UnaryOperator.ofLexeme operator.lexeme) :: frames)
        (before ++ [operator])
  | binary {frames : List Frame} {before lefts : List Token} {operator : Token} {left : Expr}
      {level : Nat} :
      Stack frames before →
      Fits level frames →
      Genuine operator →
      operatorTerminals[level]? = some operator.terminal →
      Derives AnyName (.level (leftLevel level)) lefts left →
      Stack (.binary (BinaryOperator.ofLexeme operator.lexeme) left :: frames)
        (before ++ (lefts ++ [operator]))
  | letValue {frames : List Frame} {before : List Token} {letWord name equals : Token} :
      Stack frames before →
      Fits 0 frames →
      letWord.terminal = .keyword .letWord →
      name.terminal = .name →
      equals.terminal = .equals →
      Stack (.letValue letWord.start name.lexeme :: frames) (before ++ [letWord, name, equals])
  | letBody {frames : List Frame} {before values : List Token} {letWord name equals inWord : Token}
      {value : Expr} :
      Stack frames before →
      Fits 0 frames →
      letWord.terminal = .keyword .letWord →
      name.terminal = .name →
      equals.terminal = .equals →
      Derives AnyName .expr values value →
      inWord.terminal = .keyword .inWord →
      Stack (.letBody letWord.start name.lexeme value :: frames)
        (before ++ letWord :: name :: equals :: (values ++ [inWord]))
  | functionBody {frames : List Frame} {before parameters : List Token} {funWord arrow : Token} :
      Stack frames before →
      Fits 0 frames →
      funWord.terminal = .keyword .funWord →
      (∀ parameter ∈ parameters, parameter.terminal = .name) →
      arrow.terminal = .arrow →
      Stack (.functionBody funWord.start (parameters.map Token.lexeme) :: frames)
        (before ++ funWord :: (parameters ++ [arrow]))
  | condition {frames : List Frame} {before : List Token} {ifWord : Token} :
      Stack frames before →
      Fits 0 frames →
      ifWord.terminal = .keyword .ifWord →
      Stack (.condition ifWord.start :: frames) (before ++ [ifWord])
  | thenBranch {frames : List Frame} {before conditions : List Token} {ifWord thenWord : Token}
      {condition : Expr} :
      Stack frames before →
      Fits 0 frames →
      ifWord.terminal = .keyword .ifWord →
      Derives AnyName .expr conditions condition →
      thenWord.terminal = .keyword .thenWord →
      Stack (.thenBranch ifWord.start condition :: frames)
        (before ++ ifWord :: (conditions ++ [thenWord]))
  | elseBranch {frames : List Frame} {before conditions thens : List Token}
      {ifWord thenWord elseWord : Token} {condition thenBranch : Expr} :
      Stack frames before →
      Fits 0 frames →
      ifWord.terminal = .keyword .ifWord →
      Derives AnyName .expr conditions condition →
      thenWord.terminal = .keyword .thenWord →
      Derives AnyName .expr thens thenBranch →
      elseWord.terminal = .keyword .elseWord →
      Stack (.elseBranch ifWord.start condition thenBranch :: frames)
        (before ++ ifWord :: (conditions ++ thenWord :: (thens ++ [elseWord])))
  | group {frames : List Frame} {before : List Token} {opening : Token} :
      Stack frames before →
      opening.terminal = .openParen →
      Stack (.group :: frames) (before ++ [opening])
  | call {frames : List Frame} {before callees tokens : List Token} {opening : Token}
      {callee : Expr} {arguments : List Item} :
      Stack frames before →
      Derives AnyName .primary callees callee →
      opening.terminal = .openParen →
      Members Item.tokens arguments tokens →
      (∀ argument ∈ arguments, Derives AnyName .expr argument.tokens argument.expr) →
      Stack (.call callee (arguments.map Item.expr) :: frames)
        (before ++ (callees ++ opening :: tokens))
  | array {frames : List Frame} {before tokens : List Token} {opening : Token}
      {items : List Item} :
      Stack frames before →
      opening.terminal = .openBracket →
      Members Item.tokens items tokens →
      (∀ item ∈ items, Derives AnyName .expr item.tokens item.expr) →
      Stack (.array opening.start (items.map Item.expr) :: frames) (before ++ opening :: tokens)
  | record {frames : List Frame} {before tokens : List Token} {opening : Token}
      {fields : List FieldItem} :
      Stack frames before →
      opening.terminal = .openBrace →
      Members FieldItem.tokens fields tokens →
      (∀ field ∈ fields, field.WellFormed) →
      (∀ field ∈ fields, Derives AnyName .expr field.values field.value) →
      Stack (.record opening.start (fields.map FieldItem.field) :: frames)
        (before ++ opening :: tokens)
  | field {frames : List Frame} {before tokens : List Token} {opening name equals : Token}
      {fields : List FieldItem} :
      Stack frames before →
      opening.terminal = .openBrace →
      Members FieldItem.tokens fields tokens →
      (∀ field ∈ fields, field.WellFormed) →
      (∀ field ∈ fields, Derives AnyName .expr field.values field.value) →
      IsFieldName name →
      equals.terminal = .equals →
      Stack (.field opening.start (fields.map FieldItem.field) name.start (fieldNameOf name)
          :: frames)
        (before ++ opening :: (tokens ++ [name, equals]))

/-- The tokens that a state stands for. -/
inductive Holds : State → List Token → Prop where
  | operand {frames : List Frame} {tokens : List Token} :
      Stack frames tokens → Holds ⟨.operand, frames⟩ tokens
  | operator {frames : List Frame} {before operands : List Token} {operand : Expr} {flag : Bool} :
      Stack frames before →
      Derives AnyName .primary operands operand →
      Holds ⟨.operator operand flag, frames⟩ (before ++ operands)
  | accessName {frames : List Frame} {before targets : List Token} {target : Expr} {dot : Token} :
      Stack frames before →
      Derives AnyName .primary targets target →
      dot.terminal = .dot →
      Holds ⟨.accessName target, frames⟩ (before ++ (targets ++ [dot]))
  | letName {frames : List Frame} {before : List Token} {letWord : Token} :
      Stack frames before →
      Fits 0 frames →
      letWord.terminal = .keyword .letWord →
      Holds ⟨.letName letWord.start, frames⟩ (before ++ [letWord])
  | letEquals {frames : List Frame} {before : List Token} {letWord name : Token} :
      Stack frames before →
      Fits 0 frames →
      letWord.terminal = .keyword .letWord →
      name.terminal = .name →
      Holds ⟨.letEquals letWord.start name.lexeme, frames⟩ (before ++ [letWord, name])
  | parameters {frames : List Frame} {before parameters : List Token} {funWord : Token} :
      Stack frames before →
      Fits 0 frames →
      funWord.terminal = .keyword .funWord →
      (∀ parameter ∈ parameters, parameter.terminal = .name) →
      Holds ⟨.parameters funWord.start (parameters.map Token.lexeme), frames⟩
        (before ++ funWord :: parameters)
  | importPath {frames : List Frame} {before : List Token} {importWord : Token} :
      Stack frames before →
      importWord.terminal = .keyword .importWord →
      Holds ⟨.importPath importWord.start, frames⟩ (before ++ [importWord])
  | fieldName {frames : List Frame} {tokens : List Token} :
      Stack frames tokens → Holds ⟨.fieldName, frames⟩ tokens
  | fieldEquals {frames : List Frame} {before : List Token} {name : Token} :
      Stack frames before →
      IsFieldName name →
      Holds ⟨.fieldEquals name.start (fieldNameOf name), frames⟩ (before ++ [name])

/-! ## Closing frames -/

/-- An operand of a level is an operand of every looser level. -/
theorem Derives.loosen {isIdentifier : Text → Prop} {lower higher : Nat} {tokens : List Token}
    {expr : Expr} (derivation : Derives isIdentifier (.level higher) tokens expr)
    (least : lower ≤ higher) (atMost : higher ≤ unaryLevel) :
    Derives isIdentifier (.level lower) tokens expr := by
  induction higher with
  | zero =>
      cases Nat.le_zero.mp least
      exact derivation
  | succ higher induction =>
      rcases Nat.le_succ_iff.mp least with before | rfl
      · exact induction (.tighter atMost derivation) before (Nat.le_of_succ_le atMost)
      · exact derivation

/-- What an operator of a level has to its left when it has closed the frames that bind at least as
tightly: an operand of that level, inside of frames that fit. -/
theorem Stack.of_closeOperators {frames : List Frame} {tokens operands : List Token}
    {operand : Expr} {least level : Nat} (stack : Stack frames tokens)
    (derivation : Derives AnyName (.level level) operands operand) (fits : Fits level frames)
    (atLeast : least ≤ level) (atMost : level ≤ unaryLevel) :
    ∃ before inside, tokens ++ operands = before ++ inside ∧
      Stack (closeOperators least operand frames).2 before ∧
      Fits least (closeOperators least operand frames).2 ∧
      Derives AnyName (.level least) inside (closeOperators least operand frames).1 := by
  -- The level rises and falls with the frames that close, so the induction is over all of them.
  induction frames generalizing tokens operands operand level with
  | nil => exact ⟨tokens, operands, rfl, stack, fits_nil least, derivation.loosen atLeast atMost⟩
  | cons frame frames induction =>
      cases frame with
      | unary start operator =>
          cases stack with
          | unary stack isUnary =>
              -- A sign before an operand fits around no looser operand.
              have tightest : level = unaryLevel := by
                rcases Nat.eq_or_lt_of_le atMost with same | below
                · exact same
                · have stays := fits below _ _ rfl
                  cases stays
              subst tightest
              obtain ⟨others, inside, same, rest⟩ :=
                induction stack (.unary isUnary derivation) (fits_unaryLevel _) atLeast atMost
              refine ⟨others, inside, ?_, rest⟩
              rw [← same, List.append_assoc, List.singleton_append]
      | binary operator left =>
          cases stack with
          | @binary _ before lefts operator _ outer stack fitsOuter genuine terminal leftDerives =>
              have isLevel := level_ofLexeme genuine terminal
              have below : outer < unaryLevel := level_lt_of_operatorTerminals terminal
              rw [closeOperators, isLevel]
              by_cases binds : least ≤ outer
              · have tighter : outer + 1 ≤ level := by
                  rcases Nat.eq_or_lt_of_le atMost with same | looser
                  · rw [same]
                    exact below
                  · have stays := fits looser _ _ rfl
                    simp only [Frame.bindsAt, isLevel, decide_eq_false_iff_not] at stays
                    exact Nat.lt_of_not_le stays
                have right := derivation.loosen tighter atMost
                obtain ⟨others, inside, same, rest⟩ := induction stack
                  (.binary terminal leftDerives right) fitsOuter binds (Nat.le_of_lt below)
                rw [if_pos binds]
                refine ⟨others, inside, ?_, rest⟩
                rw [← same]
                simp only [List.append_assoc, List.singleton_append]
              · rw [if_neg binds]
                refine ⟨_, operands, rfl, .binary stack fitsOuter genuine terminal leftDerives,
                  fits_cons _ ?_, derivation.loosen atLeast atMost⟩
                simpa [Frame.bindsAt, isLevel] using binds
      | _ =>
          exact ⟨tokens, operands, rfl, stack, fits_cons _ rfl, derivation.loosen atLeast atMost⟩

/-- The end of an expression closes its operators first. -/
theorem closeExpr_closeOperators (operand : Expr) (frames : List Frame) :
    closeExpr (closeOperators 0 operand frames).1 (closeOperators 0 operand frames).2 =
      closeExpr operand frames := by
  induction frames generalizing operand with
  | nil => rfl
  | cons frame frames induction =>
      cases frame with
      | unary _ _ => exact induction _
      | binary _ _ => exact induction _
      | _ => rfl

/-- What stands before a token that ends an expression, when the bindings, functions and
conditionals are closed: an expression, inside of frames that stay open. -/
theorem Stack.of_closeExpr {frames : List Frame} {tokens inside : List Token} {expr : Expr}
    (stack : Stack frames tokens) (derivation : Derives AnyName .expr inside expr)
    (fits : Fits 0 frames) :
    ∃ others whole, tokens ++ inside = others ++ whole ∧
      Stack (closeExpr expr frames).2 others ∧
      Derives AnyName .expr whole (closeExpr expr frames).1 := by
  induction frames generalizing tokens inside expr with
  | nil => exact ⟨tokens, inside, rfl, stack, derivation⟩
  | cons frame frames induction =>
      cases frame with
      | unary _ _ => cases fits (by decide) _ _ rfl
      | binary _ _ => cases fits (by decide) _ _ rfl
      | letBody start name value =>
          cases stack with
          | letBody stack fitsOuter isLet isName isEquals valueDerives isIn =>
              obtain ⟨others, whole, same, rest⟩ := induction stack
                (.letIn isLet isName isEquals valueDerives isIn derivation) fitsOuter
              refine ⟨others, whole, ?_, rest⟩
              rw [← same]
              simp
      | functionBody start parameters =>
          cases stack with
          | functionBody stack fitsOuter isFun names isArrow =>
              obtain ⟨others, whole, same, rest⟩ := induction stack
                (.function isFun names isArrow derivation) fitsOuter
              refine ⟨others, whole, ?_, rest⟩
              rw [← same]
              simp
      | elseBranch start condition thenBranch =>
          cases stack with
          | elseBranch stack fitsOuter isIf conditionDerives isThen thenDerives isElse =>
              obtain ⟨others, whole, same, rest⟩ := induction stack
                (.conditional isIf conditionDerives isThen thenDerives isElse derivation) fitsOuter
              refine ⟨others, whole, ?_, rest⟩
              rw [← same]
              simp
      | _ => exact ⟨tokens, inside, rfl, stack, derivation⟩

end ConfigGraph.Grammar
