import ConfigGraph.Proofs.Grammar.Lexing
import ConfigGraph.Proofs.Grammar.Soundness

/-!
# Runs of the parser

A run of the parser over a text goes over some tokens, from one state to the next, and then comes to
an end: the text is over, the lexer finds nothing that it looks for, or the machine does not take
what it finds.  `Passes` are the tokens that it goes over, `Ends` how it ends.
-/

namespace ConfigGraph.Grammar

open ConfigGraph.Parser Lexer

/-- The token that stands for the end of a text, behind tokens in reverse order. -/
def endOfText (before : List Token) : Token :=
  ⟨.finish, [], (before.head?.map Token.start).getD 0⟩

/-- A state lets the lexer find a token behind a gap, and some text is left. -/
inductive Finds (state : State) (offset : Nat) : Text → Token → Text → Prop where
  | intro {gap tail rest : Text} {first : CodePoint} {token : Token} :
      Gap gap →
      first ∉ boundaries →
      token.lexeme = first :: tail →
      token.start = offset + gap.length →
      match? (fun terminal => state.accepted.contains terminal) first (tail ++ rest) =
        some (token.terminal, tail.length) →
      Finds state offset (gap ++ (token.lexeme ++ rest)) token rest

/-- `Passes state offset text tokens last final left`: over the tokens the parser gets from one state
to another one, from an offset with the text behind it to another one. -/
inductive Passes : State → Nat → Text → List Token → State → Nat → Text → Prop where
  | refl {state : State} {offset : Nat} {text : Text} : Passes state offset text [] state offset text
  | token {state next last : State} {offset final : Nat} {text rest left : Text} {token : Token}
      {tokens : List Token} :
      Finds state offset text token rest →
      state.step token = .next next →
      Passes next token.stop rest tokens last final left →
      Passes state offset text (token :: tokens) last final left

/-- How a run ends in a state, behind tokens in reverse order. -/
inductive Ends (state : State) (before : List Token) (offset : Nat) :
    Text → Except SyntaxFault (List Token × Expr) → Prop where
  | done {text : Text} {tree : Expr} :
      FinalGap text →
      state.step (endOfText before) = .done tree →
      Ends state before offset text (.ok (before.reverse, tree))
  /-- The text ends too early. -/
  | early {text : Text} {expected : List Terminal} :
      FinalGap text →
      (∀ tree, state.step (endOfText before) ≠ .done tree) →
      Ends state before offset text (.error (.unexpected expected (endOfText before)))
  /-- The lexer finds a token that the machine does not take. -/
  | unfit {text rest : Text} {token : Token} {expected : List Terminal} :
      Finds state offset text token rest →
      state.step token = .stuck expected →
      Ends state before offset text (.error (.unexpected expected token))
  /-- The lexer finds a token only where it looks for any. -/
  | unexpected {gap rest : Text} {first : CodePoint} {terminal : Terminal} {more : Nat} :
      Gap gap →
      match? (fun terminal => state.accepted.contains terminal) first rest = none →
      match? (fun _ => true) first rest = some (terminal, more) →
      Ends state before offset (gap ++ first :: rest)
        (.error (.unexpected state.lexable
          ⟨terminal, first :: rest.take more, offset + gap.length⟩))
  | unknown {gap rest : Text} {first : CodePoint} :
      Gap gap →
      match? (fun terminal => state.accepted.contains terminal) first rest = none →
      match? (fun _ => true) first rest = none →
      Ends state before offset (gap ++ first :: rest)
        (.error (.invalidCharacter (offset + gap.length) first))

/-! ## Turns of a run -/

theorem run_of_skip_nil {state : State} {before : List Token} {offset : Nat} {text : Text}
    (skipped : skipBlanks text = []) :
    Parser.run state before offset text =
      match state.step (endOfText before) with
      | .done tree => .ok (before.reverse, tree)
      | .next next => .error (.unexpected next.accepted (endOfText before))
      | .stuck expected => .error (.unexpected expected (endOfText before)) := by
  rw [Parser.run]
  split
  · rfl
  · rename_i other
    rw [skipped] at other
    cases other

theorem run_of_skip_cons {state : State} {before : List Token} {offset : Nat} {gap rest : Text}
    {first : CodePoint} (isGap : Gap gap) (inside : first ∉ boundaries) :
    Parser.run state before offset (gap ++ first :: rest) =
      match match? (fun terminal => state.accepted.contains terminal) first rest with
      | none =>
          match match? (fun _ => true) first rest with
          | none => .error (.invalidCharacter (offset + gap.length) first)
          | some (terminal, more) =>
              .error (.unexpected state.lexable
                ⟨terminal, first :: rest.take more, offset + gap.length⟩)
      | some (terminal, more) =>
          let token : Token := ⟨terminal, first :: rest.take more, offset + gap.length⟩
          match state.step token with
          | .done tree => .ok ((token :: before).reverse, tree)
          | .stuck expected => .error (.unexpected expected token)
          | .next next => Parser.run next (token :: before) token.stop (rest.drop more) := by
  have skipped : skipBlanks (gap ++ first :: rest) = first :: rest := by
    rw [isGap.skipBlanks_append, skipBlanks_cons inside]
  have start : offset + ((gap ++ first :: rest).length - (rest.length + 1)) =
      offset + gap.length := by
    simp only [List.length_append, List.length_cons]
    omega
  conv => lhs; rw [Parser.run]
  split
  · rename_i nothing
    rw [skipped] at nothing
    cases nothing
  · rename_i other others alsoSkipped
    rw [skipped] at alsoSkipped
    cases alsoSkipped
    generalize offset + ((gap ++ first :: rest).length - (rest.length + 1)) = place at start ⊢
    subst start
    rfl

/-- A gap is skipped. -/
theorem run_gap {state : State} {before : List Token} {offset : Nat} {gap : Text}
    (isGap : Gap gap) (text : Text) :
    Parser.run state before offset (gap ++ text) =
      Parser.run state before (offset + gap.length) text := by
  cases skipped : skipBlanks text with
  | nil =>
      rw [run_of_skip_nil skipped, run_of_skip_nil (by rw [isGap.skipBlanks_append, skipped])]
  | cons first rest =>
      obtain ⟨inside, inner, isInner, rfl⟩ := gap_of_skipBlanks skipped
      rw [← List.append_assoc, run_of_skip_cons (isGap.append isInner) inside,
        run_of_skip_cons isInner inside]
      simp only [List.length_append, Nat.add_assoc]

/-- One turn over a token that the lexer finds. -/
theorem run_of_finds {state : State} {before : List Token} {offset : Nat} {text rest : Text}
    {token : Token} (finds : Finds state offset text token rest) :
    Parser.run state before offset text =
      match state.step token with
      | .done tree => .ok ((token :: before).reverse, tree)
      | .stuck expected => .error (.unexpected expected token)
      | .next next => Parser.run next (token :: before) token.stop rest := by
  obtain @⟨gap, tail, _, first, _, isGap, inside, covered, start, found⟩ := finds
  have same : (⟨token.terminal, first :: (tail ++ rest).take tail.length, offset + gap.length⟩ :
      Token) = token := by
    rw [List.take_left, ← covered, ← start]
  rw [covered, List.cons_append, run_of_skip_cons isGap inside]
  simp only [found, same, List.drop_left]

theorem run_of_passes {state last : State} {offset final : Nat} {text left : Text}
    {tokens : List Token} (passes : Passes state offset text tokens last final left)
    (before : List Token) :
    Parser.run state before offset text = Parser.run last (tokens.reverse ++ before) final left := by
  induction passes generalizing before with
  | refl => rfl
  | @token _ _ _ _ _ _ _ _ token tokens finds moves _ induction =>
      rw [run_of_finds finds, moves]
      dsimp only
      rw [induction, List.reverse_cons, List.append_assoc, List.singleton_append]

/-! ## Every run has a trace -/

/-- Only the end of the text completes a document. -/
theorem isFinish_of_done {state : State} {token : Token} {tree : Expr}
    (done : state.step token = .done tree) : token.terminal = .finish := by
  obtain ⟨mode, frames⟩ := state
  cases mode with
  | operand => exact absurd done stepOperand_ne_done
  | operator operand flag => exact (stepOperator_done done).2.1
  | _ =>
      simp only [State.step, Outcome.operand] at done
      split at done <;> cases done

theorem Finds.genuine {state : State} {offset : Nat} {text rest : Text} {token : Token}
    (finds : Finds state offset text token rest) :
    Genuine token ∧ token.terminal ∈ state.accepted := by
  obtain ⟨_, _, covered, _, found⟩ := finds
  obtain ⟨lexeme, accepted⟩ := lexeme_of_match? found
  rw [List.take_left, ← covered] at lexeme
  exact ⟨lexeme, List.contains_iff_mem.mp accepted⟩

/-- A token ends where the text behind it starts. -/
theorem Finds.split {state : State} {offset : Nat} {text rest : Text} {token : Token}
    (finds : Finds state offset text token rest) :
    ∃ before, text = before ++ rest ∧ token.stop = offset + before.length := by
  obtain @⟨gap, _, _, _, _, _, _, _, start, _⟩ := finds
  refine ⟨gap ++ token.lexeme, by rw [List.append_assoc], ?_⟩
  rw [Token.stop, start, List.length_append, Nat.add_assoc]

theorem finds_of_match? {state : State} {offset more : Nat} {gap rest : Text} {first : CodePoint}
    {terminal : Terminal} (isGap : Gap gap) (inside : first ∉ boundaries)
    (found : match? (fun terminal => state.accepted.contains terminal) first rest =
      some (terminal, more)) :
    Finds state offset (gap ++ first :: rest)
      ⟨terminal, first :: rest.take more, offset + gap.length⟩ (rest.drop more) := by
  have length : (rest.take more).length = more :=
    List.length_take_of_le (room_of_match? found)
  have same : match? (fun terminal => state.accepted.contains terminal) first
      (rest.take more ++ rest.drop more) = some (terminal, (rest.take more).length) := by
    rw [List.take_append_drop, length, found]
  have finds := @Finds.intro state offset gap (rest.take more) (rest.drop more) first
    ⟨terminal, first :: rest.take more, offset + gap.length⟩ isGap inside rfl rfl same
  rwa [List.cons_append, List.take_append_drop] at finds

/-- The parser goes over some tokens, and then its run ends. -/
theorem trace_of_run (state : State) (before : List Token) (offset : Nat) (text : Text) :
    ∃ tokens last final left, Passes state offset text tokens last final left ∧
      Ends last (tokens.reverse ++ before) final left (Parser.run state before offset text) := by
  -- The text that is left is shorter behind every token, so the induction is on its length.
  induction size : text.length using Nat.strongRecOn generalizing state before offset text with
  | _ length induction =>
      cases skipped : skipBlanks text with
      | nil =>
          have isFinal : FinalGap text := @finalGap_of_skip false text skipped
          refine ⟨[], state, offset, text, .refl, ?_⟩
          rw [run_of_skip_nil skipped]
          cases outcome : state.step (endOfText before) with
          | done tree => exact .done isFinal outcome
          | next next => exact .early isFinal fun tree done => by simp [outcome] at done
          | stuck expected => exact .early isFinal fun tree done => by simp [outcome] at done
      | cons first rest =>
          obtain ⟨inside, gap, isGap, rfl⟩ := gap_of_skipBlanks skipped
          cases found : match? (fun terminal => state.accepted.contains terminal) first rest with
          | none =>
              refine ⟨[], state, offset, _, .refl, ?_⟩
              rw [run_of_skip_cons isGap inside, found]
              cases any : match? (fun _ => true) first rest with
              | none => exact .unknown isGap found any
              | some entry => exact .unexpected isGap found any
          | some entry =>
              obtain ⟨terminal, more⟩ := entry
              have finds : Finds state offset _ _ _ := finds_of_match? isGap inside found
              generalize (⟨terminal, first :: rest.take more, offset + gap.length⟩ : Token) = token
                at finds
              have turn := @run_of_finds _ before _ _ _ _ finds
              cases outcome : state.step token with
              | done tree =>
                  obtain ⟨genuine, _⟩ := finds.genuine
                  exact absurd (isFinish_of_done outcome) (Genuine.ne_finish genuine)
              | next next =>
                  have shorter : (rest.drop more).length < length := by
                    rw [← size]
                    simp only [List.length_drop, List.length_append, List.length_cons]
                    omega
                  obtain ⟨tokens, last, final, left, passes, ends⟩ :=
                    induction _ shorter next (token :: before) token.stop _ rfl
                  refine ⟨token :: tokens, last, final, left, .token finds outcome passes, ?_⟩
                  rw [turn, outcome, List.reverse_cons, List.append_assoc, List.singleton_append]
                  exact ends
              | stuck expected =>
                  refine ⟨[], state, offset, _, .refl, ?_⟩
                  rw [turn, outcome]
                  exact .unfit finds outcome

end ConfigGraph.Grammar
