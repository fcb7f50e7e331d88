import ConfigGraph.Proofs.Grammar.Frame

/-!
# Reading expressions

`Steps` are the steps of the machine over tokens that the lexer expects where the machine waits for
them.  Behind an expression that it has read, the machine is at the end of an operand, inside of
frames that it has opened on the way and that close without a token of their own; wrapped around the
operand they make up the expression.
-/

namespace ConfigGraph.Grammar

open ConfigGraph.Parser

/-- The machine waits for a token; where an operand starts, a name has to be an identifier. -/
structure Expects (isIdentifier : Text → Prop) (state : State) (token : Token) : Prop where
  accepted : token.terminal ∈ state.accepted
  identifier : state.mode = .operand → token.terminal = .name → isIdentifier token.lexeme

/-- The machine reads tokens that it waits for. -/
inductive Steps (isIdentifier : Text → Prop) : State → List Token → State → Prop where
  | refl {state : State} : Steps isIdentifier state [] state
  | step {state next last : State} {token : Token} {tokens : List Token} :
      Expects isIdentifier state token →
      state.step token = .next next →
      Steps isIdentifier next tokens last →
      Steps isIdentifier state (token :: tokens) last

variable {isIdentifier : Text → Prop}

theorem Steps.trans {first middle last : State} {before behind : List Token}
    (steps : Steps isIdentifier first before middle)
    (others : Steps isIdentifier middle behind last) :
    Steps isIdentifier first (before ++ behind) last := by
  induction steps with
  | refl => exact others
  | step expects moves _ induction => exact .step expects moves (induction others)

theorem Steps.single {state next : State} {token : Token}
    (expects : Expects isIdentifier state token) (moves : state.step token = .next next) :
    Steps isIdentifier state [token] next :=
  .step expects moves .refl

/-- What the machine reads leads to one state only. -/
theorem Steps.unique {first last other : State} {tokens : List Token}
    (steps : Steps isIdentifier first tokens last)
    (others : Steps isIdentifier first tokens other) : last = other := by
  induction steps with
  | refl =>
      cases others
      rfl
  | step _ moves _ induction =>
      cases others with
      | step _ alsoMoves rest =>
          rw [moves] at alsoMoves
          cases alsoMoves
          exact induction rest

/-! ## What the machine waits for -/

theorem expects_of_accepted {state : State} {token : Token} (noName : token.terminal ≠ .name)
    (accepted : token.terminal ∈ state.accepted) : Expects isIdentifier state token :=
  ⟨accepted, fun _ isName => absurd isName noName⟩

theorem expects_of_mode {state : State} {token : Token} (noOperand : state.mode ≠ .operand)
    (accepted : token.terminal ∈ state.accepted) : Expects isIdentifier state token :=
  ⟨accepted, fun isOperand => absurd isOperand noOperand⟩

theorem expects_identifier {frames : List Frame} {token : Token} (isName : token.terminal = .name)
    (identifier : isIdentifier token.lexeme) :
    Expects isIdentifier ⟨.operand, frames⟩ token := by
  constructor
  · rw [isName]
    exact operandStarts_subset frames (by decide)
  · exact fun _ _ => identifier

theorem expects_operandStart {frames : List Frame} {token : Token} {terminal : Terminal}
    (is : token.terminal = terminal) (noName : terminal ≠ .name)
    (starts : terminal ∈ operandStarts) : Expects isIdentifier ⟨.operand, frames⟩ token := by
  subst is
  exact expects_of_accepted noName (operandStarts_subset frames starts)

theorem expects_exprStart {frames : List Frame} (fits : Fits 0 frames) {token : Token}
    {terminal : Terminal} (is : token.terminal = terminal) (noName : terminal ≠ .name)
    (starts : terminal ∈ exprStarts) : Expects isIdentifier ⟨.operand, frames⟩ token := by
  subst is
  exact expects_of_accepted noName (exprStarts_subset_of_fits fits starts)

theorem expects_operandEnd {operand : Expr} {flag : Bool} {frames : List Frame} {token : Token}
    (ends : token.terminal ∈ operandEnds) :
    Expects isIdentifier ⟨.operator operand flag, frames⟩ token := by
  apply expects_of_mode
  · exact Mode.noConfusion
  · cases flag with
    | false => exact ends
    | true => exact List.mem_cons_of_mem _ ends

/-! ## The end of an expression and operators -/

theorem stepOperator_exprEnd {operand : Expr} {frames : List Frame} {token : Token}
    (ends : token.terminal ∈ exprEnds) : stepOperator operand frames token =
      stepEnd (closeExpr operand frames).1 (closeExpr operand frames).2 token := by
  revert ends
  unfold stepOperator
  cases token.terminal <;> first | exact fun _ => rfl | exact fun ends => absurd ends (by decide)

/-- An operator between operands closes the frames that belong to its left operand. -/
theorem stepOperator_infix {level : Nat} {operator : Token} {operand : Expr}
    {inner frames : List Frame} (genuine : Genuine operator)
    (terminal : operatorTerminals[level]? = some operator.terminal)
    (binds : ∀ frame ∈ inner, frame.bindsAt (leftLevel level) = true) (fits : Fits level frames) :
    stepOperator operand (inner ++ frames) operator =
      .next ⟨.operand,
        .binary (BinaryOperator.ofLexeme operator.lexeme) (wrapAll operand inner) :: frames⟩ := by
  have below : level < unaryLevel := level_lt_of_operatorTerminals terminal
  have isLevel := level_ofLexeme genuine terminal
  by_cases compares : level = comparisonLevel
  · subst compares
    have isComparison : operator.terminal = .comparison := (Option.some.inj terminal).symm
    have closed := @closeOperators_append 4 operand inner frames binds
      (fits.mono (by decide) (by decide))
    unfold stepOperator
    simp only [isComparison, isLevel, closed]
    cases frames with
    | nil => rfl
    | cons frame others =>
        have stays := fits below frame others rfl
        cases frame with
        | binary other before =>
            simp only [Frame.bindsAt, decide_eq_false_iff_not] at stays
            have different : other.level ≠ comparisonLevel := by
              intro same
              exact stays (Nat.le_of_eq same.symm)
            simp only [if_neg different]
        | _ => rfl
  · have same : leftLevel level = level := if_neg compares
    rw [same] at binds
    have closed := closeOperators_append operand binds (fits below)
    have others : operator.terminal ∈
        [Terminal.merge, .disjunction, .conjunction, .sum, .product] := by
      revert terminal compares
      generalize operator.terminal = found
      have listed : ∀ level < operatorTerminals.length, ∀ other ∈ operatorTerminals[level]?,
          level ≠ comparisonLevel →
            other ∈ [Terminal.merge, .disjunction, .conjunction, .sum, .product] := by decide
      exact fun terminal compares => listed level below found terminal compares
    unfold stepOperator
    simp only [isLevel, closed]
    revert others
    cases operator.terminal <;> first | exact fun _ => rfl | simp

/-! ## Reading an expression -/

/-- From the start of an operand the machine reads tokens and has the expression complete. -/
def Reads (isIdentifier : Text → Prop) (frames : List Frame) (tokens : List Token)
    (expr : Expr) : Prop :=
  ∃ flag, Steps isIdentifier ⟨.operand, frames⟩ tokens ⟨.operator expr flag, frames⟩

/-- From the start of an operand the machine reads tokens; the expression is complete but for frames
that close without a token of their own. -/
def ReadsWithin (isIdentifier : Text → Prop) (closes : Frame → Bool) (frames : List Frame)
    (tokens : List Token) (expr : Expr) : Prop :=
  ∃ inner operand flag,
    Steps isIdentifier ⟨.operand, frames⟩ tokens ⟨.operator operand flag, inner ++ frames⟩ ∧
      (∀ frame ∈ inner, closes frame = true) ∧ wrapAll operand inner = expr

/-- How the machine reads the tokens of a category. -/
def Accepts (isIdentifier : Text → Prop) : Category → List Token → Expr → Prop
  | .expr, tokens, expr =>
      ∀ frames, Fits 0 frames → ReadsWithin isIdentifier Frame.endsWithExpr frames tokens expr
  | .level level, tokens, expr =>
      ∀ frames, Fits level frames →
        ReadsWithin isIdentifier (Frame.bindsAt level) frames tokens expr
  | .primary, tokens, expr | .atom, tokens, expr => ∀ frames, Reads isIdentifier frames tokens expr

theorem ReadsWithin.weaken {closes others : Frame → Bool} {frames : List Frame}
    {tokens : List Token} {expr : Expr} (reads : ReadsWithin isIdentifier closes frames tokens expr)
    (weaker : ∀ frame, closes frame = true → others frame = true) :
    ReadsWithin isIdentifier others frames tokens expr := by
  obtain ⟨inner, operand, flag, steps, all, wrapped⟩ := reads
  exact ⟨inner, operand, flag, steps, fun frame member => weaker frame (all frame member), wrapped⟩

/-- Tokens that open a frame, and then the tokens inside of it. -/
theorem ReadsWithin.open {closes : Frame → Bool} {frame : Frame} {frames : List Frame}
    {opening tokens : List Token} {expr : Expr}
    (opens : Steps isIdentifier ⟨.operand, frames⟩ opening ⟨.operand, frame :: frames⟩)
    (reads : ReadsWithin isIdentifier closes (frame :: frames) tokens expr)
    (frameCloses : closes frame = true) :
    ReadsWithin isIdentifier closes frames (opening ++ tokens) (frame.wrap expr) := by
  obtain ⟨inner, operand, flag, steps, all, wrapped⟩ := reads
  refine ⟨inner ++ [frame], operand, flag, ?_, ?_, ?_⟩
  · rw [List.append_assoc, List.singleton_append]
    exact opens.trans steps
  · intro other member
    rcases List.mem_append.mp member with isInner | isOuter
    · exact all other isInner
    · cases List.mem_singleton.mp isOuter
      exact frameCloses
  · rw [wrapAll_append_singleton, wrapped]

/-- The token behind an expression meets the frame that stays open around it. -/
theorem Accepts.close {tokens : List Token} {expr : Expr}
    (accepts : Accepts isIdentifier .expr tokens expr) (frame : Frame) (frames : List Frame)
    {token : Token} (next : State)
    (stays : frame.endsWithExpr = false) (ends : token.terminal ∈ exprEnds)
    (moves : stepEnd expr (frame :: frames) token = .next next) :
    Steps isIdentifier ⟨.operand, frame :: frames⟩ (tokens ++ [token]) next := by
  have noOperator : frame.bindsAt 0 = false := by
    rw [Bool.eq_false_iff]
    intro binds
    rw [Frame.endsWithExpr_of_bindsAt binds] at stays
    cases stays
  obtain ⟨inner, operand, flag, steps, all, wrapped⟩ :=
    accepts (frame :: frames) (fits_cons frames noOperator)
  have closed := closeExpr_append operand all (stopsAt_cons frames stays)
  have expects : Expects isIdentifier ⟨.operator operand flag, inner ++ frame :: frames⟩ token :=
    expects_operandEnd (List.mem_append_right _ (List.mem_append_right _ ends))
  apply steps.trans
  apply Steps.single expects
  calc stepOperator operand (inner ++ frame :: frames) token
      = stepEnd (wrapAll operand inner) (frame :: frames) token := by
        rw [stepOperator_exprEnd ends, closed]
    _ = .next next := by rw [wrapped, moves]

end ConfigGraph.Grammar
