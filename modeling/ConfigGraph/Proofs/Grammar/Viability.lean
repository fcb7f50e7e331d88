import ConfigGraph.Proofs.Error
import ConfigGraph.Proofs.Grammar.Completion
import ConfigGraph.Proofs.Grammar.Lookahead
import ConfigGraph.Proofs.Grammar.Words

/-!
# Where syntax errors are reported

The parser finds out about an error as soon as it can: the text in front of the place that it
reports is the start of some document.  The tokens in front of that place stay the same when another
text follows behind a gap, and the state behind them can be completed.
-/

namespace ConfigGraph.Grammar

open ConfigGraph.Parser Lexer

/-- A text that the parser reads to the end if some text follows. -/
def Viable (text : Text) : Prop :=
  ∃ rest tokens tree, Parser.run .initial [] 0 (text ++ rest) = .ok (tokens, tree)

theorem Viable.take {text : Text} (viable : Viable text) (count : Nat) :
    Viable (text.take count) := by
  obtain ⟨rest, tokens, tree, ran⟩ := viable
  refine ⟨text.drop count ++ rest, tokens, tree, ?_⟩
  rw [← List.append_assoc, List.take_append_drop, ran]

/-! ## Another text behind the tokens -/

/-- The tokens that the parser passes stay the same if another text follows behind a boundary. -/
theorem Passes.change {state last : State} {offset final : Nat} {text left : Text}
    {tokens : List Token} (passes : Passes state offset text tokens last final left) :
    ∃ near, text = near ++ left ∧ final = offset + near.length ∧
      ∀ other, Delimited other → Passes state offset (near ++ other) tokens last final other := by
  induction passes with
  | refl => exact ⟨[], rfl, rfl, fun other _ => .refl⟩
  | @token state next last offset final text rest left token tokens finds moves _ induction =>
      obtain ⟨near, rfl, place, change⟩ := induction
      obtain ⟨before, _, stop⟩ := finds.split
      obtain @⟨gap, tail, _, first, _, isGap, inside, covered, start, found⟩ := finds
      refine ⟨gap ++ (token.lexeme ++ near), ?_, ?_, fun other delimited => ?_⟩
      · simp only [List.append_assoc]
      · rw [place, Token.stop, start]
        simp only [List.length_append, Nat.add_assoc]
      · rw [← List.append_assoc] at found
        have room : tail.length ≤ (tail ++ near).length := by simp
        have stays := match?_append (match?_within found room) delimited
        rw [List.append_assoc] at stays
        have finds := Finds.intro isGap inside covered start stays
        simp only [List.append_assoc]
        exact .token finds moves (change other delimited)

theorem Gap.delimited {gap : Text} (isGap : Gap gap) (nonempty : gap ≠ []) (other : Text) :
    Delimited (gap ++ other) := by
  cases isGap with
  | nil => exact absurd rfl nonempty
  | blank blank _ => exact .blank blank
  | comment _ _ => exact .comment

/-- The end of the line ends the gap at the end of a text. -/
theorem FinalGap.line {gap : Text} (isFinal : FinalGap gap) :
    Gap (gap ++ [CodePoint.ofChar '\n']) := by
  have line : Gap [CodePoint.ofChar '\n'] := .blank rfl .nil
  cases isFinal with
  | closed isGap => exact isGap.append line
  | comment isGap inLine =>
      rw [List.append_assoc, List.cons_append]
      exact isGap.append (.comment inLine .nil)

/-- What the parser passes is the start of a document, with the gap behind it. -/
theorem Passes.viable {last : State} {final : Nat} {text gap more : Text} {tokens : List Token}
    (passes : Passes .initial 0 text tokens last final (gap ++ more)) (isFinal : FinalGap gap) :
    ∃ near, text = near ++ gap ++ more ∧ (near ++ gap).length = final + gap.length ∧
      Viable (near ++ gap) := by
  have wellNested : WellNested last := passes.wellNested (List.forall_mem_nil _)
  obtain ⟨near, split, place, change⟩ := passes.change
  rw [Nat.zero_add] at place
  refine ⟨near, by rw [split, List.append_assoc], by rw [place, List.length_append], ?_⟩
  have line := isFinal.line
  obtain ⟨rest, ⟨all, tree⟩, ran⟩ :=
    wellNested.completes (tokens.reverse ++ []) (final + (gap ++ [CodePoint.ofChar '\n']).length)
  have delimited : Delimited (gap ++ [CodePoint.ofChar '\n'] ++ rest) :=
    line.delimited (by simp) rest
  refine ⟨CodePoint.ofChar '\n' :: rest, all, tree, ?_⟩
  have same : near ++ gap ++ CodePoint.ofChar '\n' :: rest =
      near ++ (gap ++ [CodePoint.ofChar '\n'] ++ rest) := by
    simp only [List.append_assoc, List.singleton_append]
  rw [same, run_of_passes (change _ delimited), run_gap line, ran]

/-! ## Faults of the parser -/

/-- The last token of a text starts in it. -/
theorem start_endOfText_le {last : State} {final : Nat} {text left : Text} {tokens : List Token}
    (passes : Passes .initial 0 text tokens last final left) :
    (endOfText tokens.reverse).start ≤ text.length := by
  simp only [endOfText, List.head?_reverse]
  cases isLast : tokens.getLast? with
  | none => exact Nat.zero_le _
  | some token =>
      obtain ⟨_, _, _, before, rest, _, rfl, stop⟩ :=
        passes.finds_of_mem (List.mem_of_getLast? isLast)
      rw [Token.stop, Nat.zero_add] at stop
      simp only [List.length_append, Option.map_some, Option.getD_some]
      omega

/-- A fault stands in the text, behind the start of some document; where the text ends too early it
is such a start as a whole. -/
theorem viable_of_run {text : Text} {fault : SyntaxFault}
    (failed : Parser.run .initial [] 0 text = .error fault) :
    fault.offset ≤ text.length ∧ Viable (text.take (fault.offset)) ∧
      ∀ expected found, fault = .unexpected expected found → found.terminal = .finish →
        Viable text := by
  obtain ⟨tokens, last, final, left, passes, ends⟩ := trace_of_run .initial [] 0 text
  rw [failed, List.append_nil] at ends
  have behind {gap more : Text} (isGap : Gap gap)
      (passes : Passes .initial 0 text tokens last final (gap ++ more)) :
      final + gap.length ≤ text.length ∧ Viable (text.take (final + gap.length)) := by
    obtain ⟨near, rfl, place, viable⟩ := passes.viable (.closed isGap)
    rw [← place, List.take_left]
    exact ⟨by simp, viable⟩
  generalize outcome : (Except.error fault : Except _ (List Token × Expr)) = result at ends
  cases ends with
  | done => cases outcome
  | early isFinal _ =>
      cases outcome
      have start := start_endOfText_le passes
      rw [← List.append_nil left] at passes
      obtain ⟨near, split, _, viable⟩ := passes.viable isFinal
      rw [List.append_nil] at split
      rw [← split] at viable
      exact ⟨start, viable.take _, fun _ _ _ _ => viable⟩
  | unfit finds _ =>
      cases outcome
      have noFinish := Genuine.ne_finish finds.genuine.1
      obtain ⟨isGap, _, _, start, _⟩ := finds
      obtain ⟨inside, viable⟩ := behind isGap passes
      rw [SyntaxFault.offset, start]
      refine ⟨inside, viable, fun expected found same isFinish => ?_⟩
      cases same
      exact absurd isFinish noFinish
  | unexpected isGap _ any =>
      cases outcome
      obtain ⟨inside, viable⟩ := behind isGap passes
      refine ⟨inside, viable, fun expected found same isFinish => ?_⟩
      cases same
      obtain ⟨lexeme, _⟩ := lexeme_of_match? any
      exact absurd isFinish (@Genuine.ne_finish ⟨_, _, 0⟩ lexeme)
  | unknown isGap _ _ =>
      cases outcome
      obtain ⟨inside, viable⟩ := behind isGap passes
      refine ⟨inside, viable, fun expected found same _ => ?_⟩
      cases same

/-! ## Messages -/

/-- The last words of a message that says that the text ends too early. -/
def endReached : Text := "but reached the end of the file instead."

/-- A message with other last words does not say so. -/
theorem not_endReached {error : LoadError} {words : Text} (last : words <:+ error.core)
    (short : words.length ≤ endReached.length) (differs : ¬words <:+ endReached) :
    ¬endReached <:+ error.message := by
  intro told
  have ends := last.trans error.core_suffix_message
  exact differs (List.suffix_of_suffix_length_le ends told short)

theorem core_unexpectedToken (details : Text) (path : Option Text) (range : Option Range) :
    (LoadError.ofTexts .parse .unexpectedToken [("details", details)] path range).core =
      "Syntax Error: Invalid syntax. " ++ details := by
  simp [LoadError.core, LoadError.ofTexts, ErrorCode.template, Piece.fill, Details.get?,
    Value.display]

/-- Only the end of the text makes a message say that the text ends too early. -/
theorem isFinish_of_endReached {source : Source} {fault : SyntaxFault} {error : LoadError}
    (failed : fault.toFailure source = .error error) (told : endReached <:+ error.message) :
    ∃ expected found, fault = .unexpected expected found ∧ found.terminal = .finish := by
  cases fault with
  | unexpected expected found =>
      cases failed
      refine ⟨expected, found, rfl, ?_⟩
      by_contra noFinish
      have isToken : (found.terminal == .finish) = false := by simpa using noFinish
      simp only [Report.toError, Report.content, isToken] at told
      split at told
      case isTrue =>
        refine absurd told (@not_endReached _ "'." ?_ (by decide) (by decide))
        rw [core_unexpectedToken]
        exact (List.suffix_append _ _).trans (List.suffix_append _ _)
      case isFalse =>
        refine absurd told (@not_endReached _ "' instead." ?_ (by decide) (by decide))
        rw [core_unexpectedToken, if_neg Bool.false_ne_true]
        exact (List.suffix_append _ _).trans
          ((List.suffix_append _ _).trans (List.suffix_append _ _))
  | invalidCharacter offset character =>
      cases failed
      refine absurd told (@not_endReached _ "' found." ?_ (by decide) (by decide))
      exact ⟨"Syntax Error: Invalid character '" ++ [character], rfl⟩
  | invalidEscape token =>
      cases failed
      refine absurd told (@not_endReached _ "' in string literal." ?_ (by decide) (by decide))
      exact ⟨"Syntax Error: Invalid escape sequence '" ++ token.lexeme, rfl⟩
  | tooManyDigits token => cases failed

/-! ## Whole documents -/

/-- The parser reads a document to its end, and the first token that cannot be read is an integer
that is too long. -/
def StopsAtInteger (text : Text) (token : Token) : Prop :=
  ∃ tokens tree, Parser.run .initial [] 0 text = .ok (tokens, tree) ∧
    FirstFault tokens token (.tooManyDigits token)

theorem StopsAtInteger.isTooLong {text : Text} {token : Token}
    (stops : StopsAtInteger text token) : IsTooLong token := by
  obtain ⟨_, _, _, ⟨isFault, _⟩⟩ := stops
  rcases faultOf?_eq_some_iff.mp isFault with ⟨_, impossible⟩ | ⟨isTooLong, _⟩
  · cases impossible
  · exact isTooLong

/-- What the parser itself finds is never a number. -/
theorem run_ne_tooManyDigits {text : Text} {token : Token} :
    Parser.run .initial [] 0 text ≠ .error (.tooManyDigits token) := by
  intro failed
  obtain ⟨tokens, last, final, left, _, ends⟩ := trace_of_run .initial [] 0 text
  generalize Parser.run .initial [] 0 text = result at failed ends
  cases ends <;> cases failed

theorem stopsAtInteger_iff {text : Text} {token : Token} :
    StopsAtInteger text token ↔ parseExpr text = .error (.tooManyDigits token) := by
  rw [parseExpr_eq_error_iff, or_iff_right run_ne_tooManyDigits]
  constructor
  · rintro ⟨tokens, tree, ran, isFirst⟩
    exact ⟨tokens, tree, token, ran, isFirst⟩
  · rintro ⟨tokens, tree, first, ran, isFirst⟩
    have same : first = token := by
      obtain ⟨isFault, _⟩ := isFirst
      rcases faultOf?_eq_some_iff.mp isFault with ⟨_, impossible⟩ | ⟨_, same⟩
      · cases impossible
      · exact (SyntaxFault.tooManyDigits.inj same).symm
    exact ⟨tokens, tree, ran, same ▸ isFirst⟩

/-- The parser breaks down exactly at integers that are too long. -/
theorem parseDocument_eq_fault_iff {source : Source} {fault : Fault} :
    parseDocument source .cairn = .error (.fault fault) ↔
      ∃ token, StopsAtInteger source.text token ∧ fault = .numberToken token.lexeme.length := by
  simp only [stopsAtInteger_iff]
  constructor
  · intro failed
    cases parsed : parseExpr source.text with
    | ok tree =>
        rw [parseDocument, parsed] at failed
        cases failed
    | error problem =>
        rw [parseDocument, parsed] at failed
        have isFault : problem.toFailure source = .fault fault := Except.error.inj failed
        rcases problem.toFailure_cases source with ⟨error, isError, _⟩ | ⟨token, rfl, breaks⟩
        · rw [isError] at isFault
          cases isFault
        · rw [breaks] at isFault
          exact ⟨token, rfl, (Failure.fault.inj isFault).symm⟩
  · rintro ⟨token, parsed, rfl⟩
    rw [parseDocument, parsed]
    rfl

/-- Where the errors of a document are, and what stands in front of them. -/
theorem viable_of_parseExpr {source : Source} {fault : SyntaxFault} {error : LoadError}
    (parsed : parseExpr source.text = .error fault) (failed : fault.toFailure source = .error error) :
    fault.offset ≤ source.text.length ∧
      (error.code = .unexpectedToken ∨ error.code = .invalidCharacter →
        Viable (source.text.take fault.offset)) ∧
      (endReached <:+ error.message → Viable source.text) := by
  rcases parseExpr_eq_error_iff.mp parsed with ran | ⟨tokens, tree, token, ran, first⟩
  · obtain ⟨inside, viable, whole⟩ := viable_of_run ran
    refine ⟨inside, fun _ => viable, fun told => ?_⟩
    obtain ⟨expected, found, same, isFinish⟩ := isFinish_of_endReached failed told
    exact whole expected found same isFinish
  · have viable : Viable source.text := ⟨[], tokens, tree, by rw [List.append_nil, ran]⟩
    refine ⟨?_, fun _ => viable.take _, fun _ => viable⟩
    obtain ⟨last, final, left, passes, _, _⟩ := passes_of_run ran
    obtain ⟨_, _, _, before, rest, _, split, stop⟩ := passes.finds_of_mem first.mem
    have isStart : fault.offset = token.start := by
      obtain ⟨isFault, _⟩ := first
      rcases faultOf?_eq_some_iff.mp isFault with ⟨_, rfl⟩ | ⟨_, rfl⟩ <;> rfl
    rw [Token.stop, Nat.zero_add] at stop
    rw [isStart, split, List.length_append]
    omega

/-- A document is read, or it fails with an error of the stage of parsing that names the document
and an empty range at an offset of its text, or the parser breaks down.

Unless the error is about the escapes of a string, the text in front of that offset is the start of
a text that the parser reads to its end; and where the message is that the end of the file was
reached, the whole text is.  The parser breaks down exactly if the text fits the grammar and the
first token of it that cannot be read is an integer that is too long. -/
theorem syntaxErrors_viable (source : Source) :
    ((∃ tree, parseDocument source .cairn = .ok (.expr tree)) ∨
      (∃ error offset, parseDocument source .cairn = .error (.error error) ∧
        error.kind = .parse ∧ error.path = some source.path ∧ offset ≤ source.text.length ∧
        error.range = some (.point (positionAt source.text offset)) ∧
        (error.code = .unexpectedToken ∨ error.code = .invalidCharacter →
          Viable (source.text.take offset)) ∧
        (endReached <:+ error.message → Viable source.text)) ∨
      ∃ fault, parseDocument source .cairn = .error (.fault fault)) ∧
    ∀ fault, parseDocument source .cairn = .error (.fault fault) ↔
      ∃ token, StopsAtInteger source.text token ∧ IsTooLong token ∧
        fault = .numberToken token.lexeme.length := by
  constructor
  · cases parsed : parseExpr source.text with
    | ok tree => exact .inl ⟨tree, by rw [parseDocument, parsed]⟩
    | error problem =>
        have failed : parseDocument source .cairn = .error (problem.toFailure source) := by
          rw [parseDocument, parsed]
        cases isFailure : problem.toFailure source with
        | error error =>
            obtain ⟨kind, path, range⟩ := SyntaxFault.location_of_toFailure isFailure
            obtain ⟨inside, viable, whole⟩ := viable_of_parseExpr parsed isFailure
            rw [isFailure] at failed
            exact .inr (.inl ⟨error, problem.offset, failed, kind, path, inside, range, viable,
              whole⟩)
        | fault fault => exact .inr (.inr ⟨fault, by rw [failed, isFailure]⟩)
  · intro fault
    rw [parseDocument_eq_fault_iff]
    constructor
    · rintro ⟨token, stops, isFault⟩
      exact ⟨token, stops, stops.isTooLong, isFault⟩
    · rintro ⟨token, stops, _, isFault⟩
      exact ⟨token, stops, isFault⟩

/-- An integer that is too long is a document that is neither read nor refused with an error. -/
theorem longNumber_breaks_down :
    (¬∃ tree, parseDocument ⟨"<string>", longNumber⟩ .cairn = .ok (.expr tree)) ∧
      ¬∃ error, parseDocument ⟨"<string>", longNumber⟩ .cairn = .error (.error error) := by
  obtain ⟨tree, _, _, ran⟩ := run_longNumber
  have isFault : faultOf? ⟨.number, longNumber, 0⟩ = some (.tooManyDigits ⟨.number, longNumber, 0⟩) :=
    faultOf?_eq_some_iff.mpr (.inr ⟨isTooLong_longNumber 0, rfl⟩)
  have first : FirstFault [⟨.number, longNumber, 0⟩] ⟨.number, longNumber, 0⟩ _ :=
    @FirstFault.intro [] [] _ _ isFault (List.forall_mem_nil _)
  have breaks := (@parseDocument_eq_fault_iff ⟨"<string>", longNumber⟩ _).mpr
    ⟨_, ⟨_, tree, ran, first⟩, rfl⟩
  rw [breaks]
  exact ⟨nofun, nofun⟩

end ConfigGraph.Grammar
