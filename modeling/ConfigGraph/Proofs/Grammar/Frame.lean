import ConfigGraph.Proofs.Grammar.Derivation

/-!
# Open constructs

The frames that close without a token of their own do so one after the other, each wrapped around
what is inside.  How far this goes depends on the level that closes them: `Fits` says that nothing
outside of an operand of a level closes with it.
-/

namespace ConfigGraph.Parser

namespace Frame

/-- What a frame makes of the expression that it waits for, if it needs nothing else. -/
def wrap (inner : Expr) : Frame → Expr
  | unary start operator => .unary ⟨start, inner.span.stop⟩ operator inner
  | binary operator left => .binary ⟨left.span.start, inner.span.stop⟩ operator left inner
  | letBody start name value => .letIn ⟨start, inner.span.stop⟩ name value inner
  | functionBody start parameters => .function ⟨start, inner.span.stop⟩ parameters inner
  | elseBranch start test consequent =>
      .conditional ⟨start, inner.span.stop⟩ test consequent inner
  | _ => inner

/-- Whether an operator at a level closes the frame. -/
def bindsAt (least : Nat) : Frame → Bool
  | unary .. => true
  | binary operator _ => least ≤ operator.level
  | _ => false

/-- Whether the end of an expression closes the frame. -/
def endsWithExpr : Frame → Bool
  | unary .. | binary .. | letBody .. | functionBody .. | elseBranch .. => true
  | _ => false

theorem bindsAt_of_le {lower higher : Nat} (least : lower ≤ higher) {frame : Frame}
    (binds : frame.bindsAt higher = true) : frame.bindsAt lower = true := by
  cases frame with
  | binary operator left =>
      simp only [bindsAt, decide_eq_true_eq] at binds ⊢
      exact Nat.le_trans least binds
  | unary _ _ => rfl
  | _ => cases binds

theorem endsWithExpr_of_bindsAt {least : Nat} {frame : Frame} (binds : frame.bindsAt least = true) :
    frame.endsWithExpr = true := by
  cases frame with
  | binary _ _ => rfl
  | unary _ _ => rfl
  | _ => cases binds

end Frame

/-- Frames wrapped around an expression, the innermost first. -/
def wrapAll (inner : Expr) (frames : List Frame) : Expr := frames.foldl Frame.wrap inner

theorem wrapAll_append_singleton (inner : Expr) (frames : List Frame) (outer : Frame) :
    wrapAll inner (frames ++ [outer]) = outer.wrap (wrapAll inner frames) := by
  rw [wrapAll, List.foldl_append]
  rfl

theorem closeOperators_eq (least : Nat) (operand : Expr) (frames : List Frame) :
    closeOperators least operand frames =
      (wrapAll operand (frames.takeWhile (Frame.bindsAt least)),
        frames.dropWhile (Frame.bindsAt least)) := by
  induction frames generalizing operand with
  | nil => rfl
  | cons frame frames induction =>
      cases frame with
      | unary start operator => exact induction _
      | binary operator left =>
          rw [closeOperators]
          by_cases binds : least ≤ operator.level
          · have closes : (Frame.binary operator left).bindsAt least = true := by
              simpa [Frame.bindsAt] using binds
            rw [if_pos binds, List.takeWhile_cons_of_pos closes, List.dropWhile_cons_of_pos closes]
            exact induction _
          · have stays : ¬(Frame.binary operator left).bindsAt least = true := by
              simpa [Frame.bindsAt] using binds
            rw [if_neg binds, List.takeWhile_cons_of_neg stays, List.dropWhile_cons_of_neg stays]
            rfl
      | _ => rfl

theorem closeExpr_eq (expr : Expr) (frames : List Frame) :
    closeExpr expr frames =
      (wrapAll expr (frames.takeWhile Frame.endsWithExpr),
        frames.dropWhile Frame.endsWithExpr) := by
  induction frames generalizing expr with
  | nil => rfl
  | cons frame frames induction =>
      cases frame with
      | unary _ _ => exact induction _
      | binary _ _ => exact induction _
      | letBody _ _ _ => exact induction _
      | functionBody _ _ => exact induction _
      | elseBranch _ _ _ => exact induction _
      | _ => rfl

/-- The frames do not start with one that closes. -/
def StopsAt (closes : Frame → Bool) (frames : List Frame) : Prop :=
  ∀ frame others, frames = frame :: others → closes frame = false

theorem stopsAt_nil (closes : Frame → Bool) : StopsAt closes [] := by
  intro frame others same
  cases same

theorem stopsAt_cons {closes : Frame → Bool} {frame : Frame} (frames : List Frame)
    (stays : closes frame = false) : StopsAt closes (frame :: frames) := by
  intro other others same
  cases same
  exact stays

theorem StopsAt.split {closes : Frame → Bool} {inner outer : List Frame}
    (stops : StopsAt closes outer) (all : ∀ frame ∈ inner, closes frame = true) :
    (inner ++ outer).takeWhile closes = inner ∧ (inner ++ outer).dropWhile closes = outer := by
  rw [List.takeWhile_append_of_pos all, List.dropWhile_append_of_pos all]
  cases outer with
  | nil => simp
  | cons frame others =>
      have stays : ¬closes frame = true := by simp [stops frame others rfl]
      rw [List.takeWhile_cons_of_neg stays, List.dropWhile_cons_of_neg stays]
      simp

/-- An operator closes exactly the frames that bind at its level. -/
theorem closeOperators_append {least : Nat} (operand : Expr) {inner outer : List Frame}
    (binds : ∀ frame ∈ inner, frame.bindsAt least = true)
    (stops : StopsAt (Frame.bindsAt least) outer) :
    closeOperators least operand (inner ++ outer) = (wrapAll operand inner, outer) := by
  obtain ⟨taken, left⟩ := stops.split binds
  rw [closeOperators_eq, taken, left]

/-- The end of an expression closes exactly the frames that end with it. -/
theorem closeExpr_append (expr : Expr) {inner outer : List Frame}
    (ends : ∀ frame ∈ inner, frame.endsWithExpr = true)
    (stops : StopsAt Frame.endsWithExpr outer) :
    closeExpr expr (inner ++ outer) = (wrapAll expr inner, outer) := by
  obtain ⟨taken, left⟩ := stops.split ends
  rw [closeExpr_eq, taken, left]

end ConfigGraph.Parser

namespace ConfigGraph.Grammar

open ConfigGraph.Parser

/-- No frame around an operand of a level belongs to that level or a tighter one.  Any frames are
around an operand of the tightest level. -/
def Fits (level : Nat) (frames : List Frame) : Prop :=
  level < unaryLevel → StopsAt (Frame.bindsAt level) frames

theorem Fits.mono {lower higher : Nat} {frames : List Frame} (fits : Fits lower frames)
    (least : lower ≤ higher) : Fits higher frames := by
  intro below frame others same
  rw [Bool.eq_false_iff]
  intro binds
  have stays := fits (Nat.lt_of_le_of_lt least below) frame others same
  rw [Frame.bindsAt_of_le least binds] at stays
  cases stays

theorem fits_unaryLevel (frames : List Frame) : Fits unaryLevel frames :=
  fun below => absurd below (Nat.lt_irrefl _)

theorem fits_cons {level : Nat} {frame : Frame} (frames : List Frame)
    (stays : frame.bindsAt level = false) : Fits level (frame :: frames) :=
  fun _ => stopsAt_cons frames stays

theorem fits_nil (level : Nat) : Fits level [] := fun _ => stopsAt_nil _

/-- Where the frame around an operand is no operator, any expression can start. -/
theorem exprStarts_subset_of_fits {frames : List Frame} (fits : Fits 0 frames) :
    exprStarts ⊆ (State.mk .operand frames).accepted := by
  cases frames with
  | nil => exact List.Subset.refl _
  | cons frame others =>
      have stays := fits (by decide) frame others rfl
      cases frame with
      | unary _ _ => cases stays
      | binary _ _ => cases stays
      | array _ _ => exact List.subset_cons_self _ _
      | call _ arguments =>
          cases arguments with
          | nil => exact List.subset_cons_self _ _
          | cons _ _ => exact List.Subset.refl _
      | _ => exact List.Subset.refl _

theorem operandStarts_subset (frames : List Frame) :
    operandStarts ⊆ (State.mk .operand frames).accepted := by
  by_cases fits : Fits 0 frames
  · exact List.Subset.trans (List.subset_append_right _ _) (exprStarts_subset_of_fits fits)
  · cases frames with
    | nil => exact absurd (fits_nil 0) fits
    | cons frame others =>
        cases frame with
        | unary _ _ => exact List.Subset.refl _
        | binary _ _ => exact List.Subset.refl _
        | _ => exact absurd (fits_cons others rfl) fits

/-- The words with which an expression or an operand starts can only start an expression where no
operator is around it. -/
theorem fits_of_accepted {word : Keyword} {frames : List Frame}
    (special : word = .letWord ∨ word = .funWord ∨ word = .ifWord)
    (accepted : Terminal.keyword word ∈ (State.mk .operand frames).accepted) : Fits 0 frames := by
  intro _ frame others same
  subst same
  rw [Bool.eq_false_iff]
  intro binds
  have isOperator : (State.mk .operand (frame :: others)).accepted = operandStarts := by
    cases frame with
    | unary _ _ => rfl
    | binary _ _ => rfl
    | _ => cases binds
  rw [isOperator] at accepted
  rcases special with rfl | rfl | rfl <;> revert accepted <;> decide

/-! ## Operators and their levels -/

theorem level_ofLexeme {level : Nat} {operator : Token} (genuine : Genuine operator)
    (terminal : operatorTerminals[level]? = some operator.terminal) :
    (BinaryOperator.ofLexeme operator.lexeme).level = level := by
  have member : operator.lexeme ∈ spellings operator.terminal := by
    have isOperator : operator.terminal ∈ operatorTerminals := List.mem_of_getElem? terminal
    unfold Genuine at genuine
    revert genuine isOperator
    cases operator.terminal <;> simp [operatorTerminals, Lexeme]
  have levels : ∀ level < operatorTerminals.length, ∀ other ∈ operatorTerminals[level]?,
      ∀ lexeme ∈ spellings other, (BinaryOperator.ofLexeme lexeme).level = level := by decide
  have below : level < operatorTerminals.length := (List.getElem?_eq_some_iff.mp terminal).1
  exact levels level below operator.terminal terminal operator.lexeme member

theorem level_lt_of_operatorTerminals {level : Nat} {terminal : Terminal}
    (isOperator : operatorTerminals[level]? = some terminal) : level < unaryLevel :=
  (List.getElem?_eq_some_iff.mp isOperator).1

end ConfigGraph.Grammar
