import ConfigGraph.Proofs.Grammar.Adequacy

/-!
# Texts that complete a document

From every state that the machine gets into, some text leads to the end of a document.  It closes
the open constructs one after another, the innermost first, with as few tokens as each of them
needs.
-/

namespace ConfigGraph.Grammar

open ConfigGraph.Parser Lexer

/-! ## Frames of records -/

/-- Whether a frame is a record between two fields. -/
def isRecord : Frame → Bool
  | .record .. => true
  | _ => false

/-- A record is between two fields only while the machine is at the name of a field. -/
def WellNested (state : State) : Prop :=
  match state.mode with
  | .fieldName | .fieldEquals _ _ =>
      ∃ start fields frames, state.frames = .record start fields :: frames ∧
        ∀ frame ∈ frames, isRecord frame = false
  | _ => ∀ frame ∈ state.frames, isRecord frame = false

theorem closeExpr_subset (expr : Expr) (frames : List Frame) : (closeExpr expr frames).2 ⊆ frames := by
  rw [closeExpr_eq]
  exact (List.dropWhile_suffix _).subset

theorem closeOperators_subset (least : Nat) (expr : Expr) (frames : List Frame) :
    (closeOperators least expr frames).2 ⊆ frames := by
  rw [closeOperators_eq]
  exact (List.dropWhile_suffix _).subset

theorem wellNested_of_stepEnd {expr : Expr} {frames : List Frame} {token : Token} {next : State}
    (noRecord : ∀ frame ∈ frames, isRecord frame = false)
    (moves : stepEnd expr frames token = .next next) : WellNested next := by
  unfold stepEnd at moves
  simp only [Outcome.operand] at moves
  split at moves
  case h_10 =>
    cases moves
    exact ⟨_, _, _, rfl, (List.forall_mem_cons.mp noRecord).2⟩
  all_goals cases moves
  all_goals
    have others := (List.forall_mem_cons.mp noRecord).2
    simpa [WellNested, isRecord] using others

theorem wellNested_of_stepOperand {frames : List Frame} {token : Token} {next : State}
    (noRecord : ∀ frame ∈ frames, isRecord frame = false)
    (moves : stepOperand frames token = .next next) : WellNested next := by
  unfold stepOperand at moves
  simp only [Outcome.operand] at moves
  split at moves
  case h_14 =>
    cases moves
    exact ⟨_, _, _, rfl, noRecord⟩
  all_goals cases moves
  all_goals simpa [WellNested, isRecord] using noRecord

theorem wellNested_of_stepOperator {operand : Expr} {frames : List Frame} {token : Token}
    {next : State} (noRecord : ∀ frame ∈ frames, isRecord frame = false)
    (moves : stepOperator operand frames token = .next next) : WellNested next := by
  have closed (least : Nat) : ∀ frame ∈ (closeOperators least operand frames).2,
      isRecord frame = false := fun frame member =>
    noRecord frame (closeOperators_subset least operand frames member)
  have behind (operator : BinaryOperator) (left : Expr) (least : Nat) :
      WellNested ⟨.operand, .binary operator left :: (closeOperators least operand frames).2⟩ :=
    List.forall_mem_cons.mpr ⟨rfl, closed least⟩
  unfold stepOperator at moves
  dsimp only at moves
  split at moves
  case h_1 =>
    cases moves
    exact noRecord
  case h_2 =>
    cases moves
    exact List.forall_mem_cons.mpr ⟨rfl, noRecord⟩
  case h_8 =>
    have around := closed ((BinaryOperator.ofLexeme token.lexeme).level + 1)
    split at moves
    case h_1 isClosed =>
      rw [isClosed] at around
      split at moves
      · cases moves
      · cases moves
        exact List.forall_mem_cons.mpr ⟨rfl, around⟩
    case h_2 isClosed =>
      rw [isClosed] at around
      cases moves
      exact List.forall_mem_cons.mpr ⟨rfl, around⟩
  case h_9 => cases moves
  case h_10 =>
    apply wellNested_of_stepEnd _ moves
    exact fun frame member => noRecord frame (closeExpr_subset operand frames member)
  all_goals
    cases moves
    apply behind

theorem WellNested.step {state next : State} {token : Token} (wellNested : WellNested state)
    (moves : state.step token = .next next) : WellNested next := by
  obtain ⟨mode, frames⟩ := state
  cases mode with
  | operand => exact wellNested_of_stepOperand wellNested moves
  | operator operand flag => exact wellNested_of_stepOperator wellNested moves
  | fieldName =>
      obtain ⟨start, fields, others, rfl, noRecord⟩ := wellNested
      simp only [State.step, Outcome.operand] at moves
      split at moves
      case h_3 same =>
        cases moves
        cases same
        exact noRecord
      case h_4 => cases moves
      all_goals
        cases moves
        exact ⟨start, fields, others, rfl, noRecord⟩
  | fieldEquals start name =>
      obtain ⟨recordStart, fields, others, rfl, noRecord⟩ := wellNested
      simp only [State.step] at moves
      split at moves
      case h_1 same =>
        cases moves
        cases same
        exact List.forall_mem_cons.mpr ⟨rfl, noRecord⟩
      case h_2 => cases moves
  | letEquals start name =>
      simp only [State.step] at moves
      split at moves
      · cases moves
        exact List.forall_mem_cons.mpr ⟨rfl, wellNested⟩
      · cases moves
  | parameters start names =>
      simp only [State.step] at moves
      split at moves
      · cases moves
        exact wellNested
      · cases moves
        exact List.forall_mem_cons.mpr ⟨rfl, wellNested⟩
      · cases moves
  | _ =>
      simp only [State.step, Outcome.operand] at moves
      split at moves <;> cases moves <;> exact wellNested

theorem Passes.wellNested {state last : State} {offset final : Nat} {text left : Text}
    {tokens : List Token} (passes : Passes state offset text tokens last final left)
    (wellNested : WellNested state) : WellNested last := by
  induction passes with
  | refl => exact wellNested
  | token _ moves _ induction => exact induction (wellNested.step moves)

/-! ## One token more -/

/-- Some text leads from a state to the end of a document. -/
def Completes (state : State) : Prop :=
  ∀ before offset, ∃ text result, Parser.run state before offset text = .ok result

/-- A state is completed by a token, and what completes the next state in the line below. -/
theorem completes_of_step {state : State} (terminal : Terminal) {lexeme : Text}
    (isLexeme : Lexeme terminal lexeme)
    (expects : ∀ start, Expects IsIdentifier state ⟨terminal, lexeme, start⟩)
    (moves : ∀ start, ∃ next, state.step ⟨terminal, lexeme, start⟩ = .next next ∧
      Completes next) : Completes state := by
  intro before offset
  obtain ⟨next, goesOn, completes⟩ := moves offset
  obtain ⟨text, result, ran⟩ :=
    completes (⟨terminal, lexeme, offset⟩ :: before) (offset + lexeme.length + 1)
  have line : Gap [CodePoint.ofChar '\n'] := .blank rfl .nil
  have delimited : Delimited ([CodePoint.ofChar '\n'] ++ text) := .blank rfl
  have finds := finds_of_expects (expects offset) .nil isLexeme rfl delimited
  refine ⟨lexeme ++ ([CodePoint.ofChar '\n'] ++ text), result, ?_⟩
  calc Parser.run state before offset (lexeme ++ ([CodePoint.ofChar '\n'] ++ text))
      = Parser.run next (⟨terminal, lexeme, offset⟩ :: before) (offset + lexeme.length)
          ([CodePoint.ofChar '\n'] ++ text) := by
        rw [List.nil_append] at finds
        rw [run_of_finds finds, goesOn]
        rfl
    _ = .ok result := by rw [run_gap line, ← ran]; rfl

/-- Behind an operand that ends some expression, all that is open can be closed. -/
def Closes (frames : List Frame) : Prop :=
  ∀ expr operand flag inner, closeExpr operand inner = closeExpr expr frames →
    Completes ⟨.operator operand flag, inner⟩

/-- Where an operand starts, a number completes it. -/
theorem Closes.operand {frames : List Frame} (closes : Closes frames) :
    Completes ⟨.operand, frames⟩ := by
  have isNumber : NumberLexeme "0" := by
    have digits : Digits "0" := ⟨by decide, by decide⟩
    exact .intro digits .absent .absent
  apply completes_of_step .number isNumber
  · intro start
    apply expects_of_accepted
    · exact Terminal.noConfusion
    · exact operandStarts_subset frames (by simp [operandStarts])
  · intro start
    exact ⟨_, rfl, closes _ _ false frames rfl⟩

theorem Closes.operator {frames : List Frame} (closes : Closes frames) (operand : Expr)
    (flag : Bool) : Completes ⟨.operator operand flag, frames⟩ :=
  closes operand operand flag frames rfl

/-! ## Closing the frames -/

theorem closes_nil : Closes [] := by
  intro expr operand flag inner closed before offset
  refine ⟨[], (before.reverse, expr), ?_⟩
  have isFinish : (endOfText before).terminal ∈ exprEnds := List.mem_cons_self
  have done : (State.mk (.operator operand flag) inner).step (endOfText before) = .done expr := by
    calc stepOperator operand inner (endOfText before)
        = stepEnd expr [] (endOfText before) := by rw [stepOperator_exprEnd isFinish, closed]; rfl
      _ = .done expr := rfl
  rw [run_of_skip_nil rfl, done]

/-- A frame that closes by itself. -/
theorem Closes.inside {frame : Frame} {frames : List Frame} (closes : Closes frames)
    (ends : frame.endsWithExpr = true) : Closes (frame :: frames) := by
  intro expr operand flag inner closed
  apply closes (frame.wrap expr)
  rw [closed, closeExpr_eq, closeExpr_eq, List.takeWhile_cons_of_pos ends,
    List.dropWhile_cons_of_pos ends]
  rfl

/-- A frame that a token closes. -/
theorem closes_of_stepEnd (terminal : Terminal) {frame : Frame} {frames : List Frame}
    {lexeme : Text} (stays : frame.endsWithExpr = false) (isEnd : terminal ∈ exprEnds)
    (isLexeme : Lexeme terminal lexeme)
    (moves : ∀ expr start, ∃ next,
      stepEnd expr (frame :: frames) ⟨terminal, lexeme, start⟩ = .next next ∧ Completes next) :
    Closes (frame :: frames) := by
  intro expr operand flag inner closed
  have isOpen : closeExpr expr (frame :: frames) = (expr, frame :: frames) :=
    @closeExpr_append expr [] _ (List.forall_mem_nil _) (stopsAt_cons frames stays)
  apply completes_of_step terminal isLexeme
  · intro start
    exact expects_operandEnd (List.mem_append_right _ (List.mem_append_right _ isEnd))
  · intro start
    obtain ⟨next, goesOn, completes⟩ := moves expr start
    refine ⟨next, ?_, completes⟩
    calc stepOperator operand inner ⟨terminal, lexeme, start⟩
        = stepEnd expr (frame :: frames) ⟨terminal, lexeme, start⟩ := by
          rw [stepOperator_exprEnd isEnd, closed, isOpen]
      _ = .next next := goesOn

section Frames

variable {frames : List Frame} (closes : Closes frames)
include closes

theorem closes_letValue (start : Nat) (name : Text) :
    Closes (.letValue start name :: frames) := by
  apply closes_of_stepEnd (.keyword .inWord) rfl (by decide) (List.mem_singleton_self _)
  intro expr place
  exact ⟨_, rfl, (closes.inside rfl).operand⟩

theorem closes_thenBranch (start : Nat) (condition : Expr) :
    Closes (.thenBranch start condition :: frames) := by
  apply closes_of_stepEnd (.keyword .elseWord) rfl (by decide) (List.mem_singleton_self _)
  intro expr place
  exact ⟨_, rfl, (closes.inside rfl).operand⟩

theorem closes_condition (start : Nat) : Closes (.condition start :: frames) := by
  apply closes_of_stepEnd (.keyword .thenWord) rfl (by decide) (List.mem_singleton_self _)
  intro expr place
  exact ⟨_, rfl, (closes_thenBranch closes _ _).operand⟩

theorem closes_group : Closes (.group :: frames) := by
  apply closes_of_stepEnd .closeParen rfl (by decide) (List.mem_singleton_self _)
  intro expr place
  exact ⟨_, rfl, closes.operator _ _⟩

theorem closes_call (callee : Expr) (arguments : List Expr) :
    Closes (.call callee arguments :: frames) := by
  apply closes_of_stepEnd .closeParen rfl (by decide) (List.mem_singleton_self _)
  intro expr place
  exact ⟨_, rfl, closes.operator _ _⟩

theorem closes_array (start : Nat) (items : List Expr) :
    Closes (.array start items :: frames) := by
  apply closes_of_stepEnd .closeBracket rfl (by decide) (List.mem_singleton_self _)
  intro expr place
  exact ⟨_, rfl, closes.operator _ _⟩

theorem closes_field (recordStart : Nat) (fields : List Field) (start : Nat) (name : Text) :
    Closes (.field recordStart fields start name :: frames) := by
  apply closes_of_stepEnd .closeBrace rfl (by decide) (List.mem_singleton_self _)
  intro expr place
  exact ⟨_, rfl, closes.operator _ _⟩

end Frames

theorem closes_of_noRecord {frames : List Frame}
    (noRecord : ∀ frame ∈ frames, isRecord frame = false) : Closes frames := by
  induction frames with
  | nil => exact closes_nil
  | cons frame frames induction =>
      obtain ⟨isOther, others⟩ := List.forall_mem_cons.mp noRecord
      have closes := induction others
      cases frame with
      | unary | binary | letBody | functionBody | elseBranch => exact closes.inside rfl
      | letValue start name => exact closes_letValue closes start name
      | condition start => exact closes_condition closes start
      | thenBranch start condition => exact closes_thenBranch closes start condition
      | group => exact closes_group closes
      | call callee arguments => exact closes_call closes callee arguments
      | array start items => exact closes_array closes start items
      | field recordStart fields start name =>
          exact closes_field closes recordStart fields start name
      | record => cases isOther

/-! ## Every state -/

theorem Closes.letEquals {frames : List Frame} (closes : Closes frames) (start : Nat)
    (name : Text) : Completes ⟨.letEquals start name, frames⟩ := by
  apply completes_of_step .equals (List.mem_singleton_self _)
  · intro place
    exact expects_of_mode Mode.noConfusion List.mem_cons_self
  · intro place
    exact ⟨_, rfl, (closes_letValue closes _ _).operand⟩

/-- Every state in which records are between two fields at the top only can be completed. -/
theorem WellNested.completes {state : State} (wellNested : WellNested state) :
    Completes state := by
  have isName : NameLexeme "a" := .intro (by decide) (by decide)
  obtain ⟨mode, frames⟩ := state
  cases mode with
  | operand => exact (closes_of_noRecord wellNested).operand
  | operator operand flag => exact (closes_of_noRecord wellNested).operator operand flag
  | accessName target =>
      apply completes_of_step .name isName
      · intro place
        exact expects_of_mode Mode.noConfusion List.mem_cons_self
      · intro place
        exact ⟨_, rfl, (closes_of_noRecord wellNested).operator _ _⟩
  | letName start =>
      apply completes_of_step .name isName
      · intro place
        exact expects_of_mode Mode.noConfusion List.mem_cons_self
      · intro place
        exact ⟨_, rfl, (closes_of_noRecord wellNested).letEquals _ _⟩
  | letEquals start name => exact (closes_of_noRecord wellNested).letEquals start name
  | parameters start names =>
      apply completes_of_step .arrow (List.mem_singleton_self _)
      · intro place
        exact expects_of_mode Mode.noConfusion (List.mem_cons_of_mem _ List.mem_cons_self)
      · intro place
        exact ⟨_, rfl, ((closes_of_noRecord wellNested).inside rfl).operand⟩
  | importPath start =>
      apply completes_of_step .string (.intro .nil)
      · intro place
        exact expects_of_mode Mode.noConfusion List.mem_cons_self
      · intro place
        exact ⟨_, rfl, (closes_of_noRecord wellNested).operator _ _⟩
  | fieldName =>
      obtain ⟨start, fields, others, rfl, noRecord⟩ := wellNested
      apply completes_of_step .closeBrace (List.mem_singleton_self _)
      · intro place
        apply expects_of_mode Mode.noConfusion
        simp [State.accepted]
      · intro place
        exact ⟨_, rfl, (closes_of_noRecord noRecord).operator _ _⟩
  | fieldEquals start name =>
      obtain ⟨recordStart, fields, others, rfl, noRecord⟩ := wellNested
      apply completes_of_step .equals (List.mem_singleton_self _)
      · intro place
        exact expects_of_mode Mode.noConfusion List.mem_cons_self
      · intro place
        exact ⟨_, rfl, (closes_field (closes_of_noRecord noRecord) _ _ _ _).operand⟩

end ConfigGraph.Grammar
