import ConfigGraph.Proofs.Grammar.Acceptance
import ConfigGraph.Proofs.Grammar.Erasure
import ConfigGraph.Proofs.Grammar.Trace

/-!
# The parser and the grammar

A text that parses is written with tokens that derive its tree.  Conversely a row of tokens that
derives a tree parses to that tree whenever it is written with a gap behind every token, unless one
of the tokens cannot be read.  A row of tokens has one tree at most.
-/

namespace ConfigGraph.Grammar

open ConfigGraph.Parser Lexer

/-! ## Tokens that cannot be read -/

/-- A token that can be read. -/
def Readable (token : Token) : Prop := faultOf? token = none

instance : DecidablePred Readable := fun token =>
  decidable_of_iff ((faultOf? token).isNone = true) Option.isNone_iff_eq_none

/-- A number token that spells an integer with more digits than are read. -/
structure IsTooLong (token : Token) : Prop where
  isNumber : token.terminal = .number
  digits : ∀ code ∈ token.lexeme, code.isDecimalDigit = true
  long : Number.digitLimit < token.lexeme.length

theorem hasTooManyDigits_iff {token : Token} : hasTooManyDigits token = true ↔ IsTooLong token := by
  simp only [hasTooManyDigits, Bool.and_eq_true, beq_iff_eq, List.all_eq_true, decide_eq_true_eq]
  constructor
  · rintro ⟨⟨isNumber, digits⟩, long⟩
    exact ⟨isNumber, digits, long⟩
  · rintro ⟨isNumber, digits, long⟩
    exact ⟨⟨isNumber, digits⟩, long⟩

theorem IsTooLong.hasBadEscape_eq {token : Token} (isTooLong : IsTooLong token) :
    hasBadEscape token = false := by
  rw [hasBadEscape, isTooLong.isNumber]
  rfl

/-- What is wrong with a token: a string can have a bad escape, and a number can be too long. -/
theorem faultOf?_eq_some_iff {token : Token} {fault : SyntaxFault} :
    faultOf? token = some fault ↔
      (hasBadEscape token = true ∧ fault = .invalidEscape token) ∨
        (IsTooLong token ∧ fault = .tooManyDigits token) := by
  rw [← hasTooManyDigits_iff, faultOf?]
  cases bad : hasBadEscape token with
  | true =>
      have short : ¬hasTooManyDigits token = true := fun long => by
        rw [(hasTooManyDigits_iff.mp long).hasBadEscape_eq] at bad
        cases bad
      simp [short, eq_comm]
  | false => cases hasTooManyDigits token <;> simp [eq_comm]

theorem readable_iff {token : Token} :
    Readable token ↔ hasBadEscape token = false ∧ ¬IsTooLong token := by
  rw [← hasTooManyDigits_iff, Readable, faultOf?]
  cases hasBadEscape token <;> cases hasTooManyDigits token <;> simp

/-- The first token of a row that cannot be read, with what is wrong with it. -/
inductive FirstFault : List Token → Token → SyntaxFault → Prop where
  | intro {before behind : List Token} {token : Token} {fault : SyntaxFault} :
      faultOf? token = some fault →
      (∀ earlier ∈ before, Readable earlier) →
      FirstFault (before ++ token :: behind) token fault

theorem findSome?_faultOf?_eq_some_iff {tokens : List Token} {fault : SyntaxFault} :
    tokens.findSome? faultOf? = some fault ↔ ∃ token, FirstFault tokens token fault := by
  rw [List.findSome?_eq_some_iff]
  constructor
  · rintro ⟨before, token, behind, rfl, isFault, earlier⟩
    exact ⟨token, .intro isFault earlier⟩
  · rintro ⟨token, ⟨isFault, earlier⟩⟩
    exact ⟨_, token, _, rfl, isFault, earlier⟩

theorem FirstFault.mem {tokens : List Token} {token : Token} {fault : SyntaxFault}
    (first : FirstFault tokens token fault) : token ∈ tokens := by
  cases first with
  | intro => exact List.mem_append_right _ List.mem_cons_self

/-- A row that holds a token that cannot be read has a first such token. -/
theorem exists_firstFault {tokens : List Token} {token : Token} (member : token ∈ tokens)
    (unreadable : ¬Readable token) : ∃ first fault, FirstFault tokens first fault := by
  cases found : tokens.findSome? faultOf? with
  | none => exact absurd (List.findSome?_eq_none_iff.mp found token member) unreadable
  | some fault =>
      obtain ⟨first, isFirst⟩ := findSome?_faultOf?_eq_some_iff.mp found
      exact ⟨first, fault, isFirst⟩

/-! ## Texts that parse -/

/-- The tokens that the parser goes over are those of its text. -/
theorem Passes.written {state last : State} {offset final : Nat} {text left : Text}
    {tokens more : List Token} (passes : Passes state offset text tokens last final left)
    (written : Written false final more left) : Written false offset (tokens ++ more) text := by
  induction passes with
  | refl => exact written
  | token finds _ _ induction =>
      obtain ⟨genuine, _⟩ := finds.genuine
      obtain ⟨isGap, _, _, start, _⟩ := finds
      exact .token isGap genuine start (absurd · Bool.false_ne_true) (induction written)

/-- What the parser has read stands for its state. -/
theorem Passes.holds {state last : State} {offset final : Nat} {text left : Text}
    {before tokens : List Token} (passes : Passes state offset text tokens last final left)
    (holds : Holds state before) : Holds last (before ++ tokens) := by
  induction passes generalizing before with
  | refl => rwa [List.append_nil]
  | token finds moves _ induction =>
      obtain ⟨genuine, accepted⟩ := finds.genuine
      have goesOn := induction (holds.step genuine accepted moves)
      rwa [List.append_assoc] at goesOn

/-! ## Rows that are written with gaps -/

/-- Where the lexer looks for a sign before an operand it looks for none between operands. -/
theorem sum_notMem_accepted {state : State} (unary : Terminal.unary ∈ state.accepted) :
    Terminal.sum ∉ state.accepted := by
  obtain ⟨mode, frames⟩ := state
  cases mode with
  | operand =>
      simp only [State.accepted]
      split <;> decide
  | operator operand afterName =>
      cases afterName <;> simp [State.accepted, operandEnds, comparisonEnds, exprEnds] at unary
  | _ => simp [State.accepted, operandEnds, comparisonEnds, exprEnds] at unary

/-- The words that are no identifiers. -/
def startWords : List Keyword :=
  [.letWord, .funWord, .ifWord, .importWord, .trueWord, .falseWord, .nullWord]

/-- Names that can be identifiers; the words inside bindings and conditionals are among them. -/
def IsIdentifier (text : Text) : Prop := ∀ word ∈ startWords, word.spelling ≠ text

instance : DecidablePred IsIdentifier := fun text =>
  inferInstanceAs (Decidable (∀ word ∈ startWords, word.spelling ≠ text))

/-- Reserved words that are accepted where a name is, are start words, and an operand starts
there. -/
theorem mem_startWords_of_accepted {state : State} {word : Keyword}
    (name : Terminal.name ∈ state.accepted) (accepted : Terminal.keyword word ∈ state.accepted) :
    state.mode = .operand ∧ word ∈ startWords := by
  obtain ⟨mode, frames⟩ := state
  cases mode with
  | operand =>
      refine ⟨rfl, ?_⟩
      simp only [State.accepted] at accepted
      revert accepted
      split <;> cases word <;> decide
  | operator operand afterName =>
      cases afterName <;> simp [State.accepted, operandEnds, comparisonEnds, exprEnds] at name
  | fieldEquals _ _ => simp [State.accepted, operandEnds, comparisonEnds, exprEnds] at name
  | _ => simp [State.accepted] at accepted

/-- A name that is an identifier where an operand starts is no reserved word that is accepted. -/
theorem Expects.notReserved {state : State} {token : Token}
    (expects : Expects IsIdentifier state token) (isName : token.terminal = .name) {word : Keyword}
    (reserved : Keyword.ofSpelling? token.lexeme = some word) :
    Terminal.keyword word ∉ state.accepted := by
  intro accepted
  obtain ⟨isOperand, isStart⟩ := mem_startWords_of_accepted (isName ▸ expects.accepted) accepted
  exact expects.identifier isOperand isName word isStart (spelling_of_ofSpelling? reserved)

/-- The lexer finds a token that the machine waits for, if it is written with gaps around it. -/
theorem finds_of_expects {state : State} {offset : Nat} {gap rest : Text} {token : Token}
    (expects : Expects IsIdentifier state token) (isGap : Gap gap) (genuine : Genuine token)
    (start : token.start = offset + gap.length) (delimited : Delimited rest) :
    Finds state offset (gap ++ (token.lexeme ++ rest)) token rest := by
  -- No reserved word and no sign between operands is accepted in the place of the token.
  have found := @match?_of_lexeme (fun terminal => state.accepted.contains terminal) _ _ _
    genuine delimited (List.contains_iff_mem.mpr expects.accepted)
    (fun isName word reserved => by
      simpa using expects.notReserved isName reserved)
    (fun isUnary => by
      simpa using sum_notMem_accepted (isUnary ▸ expects.accepted))
  obtain ⟨head, tail, covered, inside, found⟩ := found
  exact .intro isGap inside covered start found

/-- The parser takes the steps of the machine over the tokens of a spaced text. -/
theorem passes_of_steps {first last : State} {tokens more : List Token}
    (steps : Steps IsIdentifier first tokens last) {offset : Nat} {text : Text}
    (written : Written true offset (tokens ++ more) text) :
    ∃ final left, Passes first offset text tokens last final left ∧ Written true final more left := by
  induction steps generalizing offset text with
  | refl => exact ⟨offset, text, .refl, written⟩
  | step expects moves _ induction =>
      cases written with
      | token isGap genuine start delimited written =>
          obtain ⟨final, left, passes, writtenBehind⟩ := induction written
          have finds := finds_of_expects expects isGap genuine start (delimited rfl)
          exact ⟨final, left, .token finds moves passes, writtenBehind⟩

/-! ## Whole documents -/

/-- The parser reads a row that is written with gaps, and comes to the derived tree. -/
theorem run_of_derives {tokens : List Token} {tree : Expr} {text : Text}
    (derivation : Derives IsIdentifier .expr tokens tree) (written : Written true 0 tokens text) :
    Parser.run .initial [] 0 text = .ok (tokens, tree) := by
  obtain ⟨inner, operand, flag, steps, ends, wrapped⟩ :=
    derivation.accepts written.genuine [] (fits_nil 0)
  rw [List.append_nil] at steps
  have allTokens : Written true 0 (tokens ++ []) text := by rwa [List.append_nil]
  obtain ⟨final, left, passes, writtenBehind⟩ := passes_of_steps steps allTokens
  obtain ⟨isFinal⟩ := writtenBehind
  have closed : closeExpr operand inner = (tree, []) := by
    have all := closeExpr_append operand ends (stopsAt_nil _)
    rwa [List.append_nil, wrapped] at all
  have done : (State.mk (.operator operand flag) inner).step (endOfText tokens.reverse) =
      .done tree := by
    calc stepOperator operand inner (endOfText tokens.reverse)
        = stepEnd tree [] (endOfText tokens.reverse) := by
          rw [stepOperator_exprEnd (List.mem_cons_self : Terminal.finish ∈ exprEnds), closed]
      _ = .done tree := rfl
  rw [State.initial, run_of_passes passes, run_of_skip_nil isFinal.skipBlanks_eq_nil,
    List.append_nil, done]
  simp only [List.reverse_reverse]

/-- A text parses exactly if the parser reads it to its end and all its tokens can be read. -/
theorem parseExpr_eq_ok_iff {text : Text} {tree : Expr} :
    parseExpr text = .ok tree ↔ ∃ tokens, Parser.run .initial [] 0 text = .ok (tokens, tree) ∧
      ∀ token ∈ tokens, Readable token := by
  rw [parseExpr]
  cases Parser.run .initial [] 0 text with
  | error fault => simp
  | ok read =>
      obtain ⟨tokens, expr⟩ := read
      cases found : tokens.findSome? faultOf? with
      | none =>
          have readable := List.findSome?_eq_none_iff.mp found
          simp only [found]
          constructor
          · rintro ⟨⟩
            exact ⟨tokens, rfl, readable⟩
          · rintro ⟨_, ⟨⟩, _⟩
            rfl
      | some fault =>
          simp only [found]
          constructor
          · rintro ⟨⟩
          · rintro ⟨_, ⟨⟩, readable⟩
            rw [List.findSome?_eq_none_iff.mpr readable] at found
            cases found

/-- A text is refused for what the parser finds, or for its first token that cannot be read. -/
theorem parseExpr_eq_error_iff {text : Text} {fault : SyntaxFault} :
    parseExpr text = .error fault ↔ Parser.run .initial [] 0 text = .error fault ∨
      ∃ tokens tree token, Parser.run .initial [] 0 text = .ok (tokens, tree) ∧
        FirstFault tokens token fault := by
  rw [parseExpr]
  cases Parser.run .initial [] 0 text with
  | error other => simp
  | ok read =>
      obtain ⟨tokens, tree⟩ := read
      have isFirst := @findSome?_faultOf?_eq_some_iff tokens fault
      cases found : tokens.findSome? faultOf? <;> simpa [found] using isFirst

theorem parseExpr_of_derives {tokens : List Token} {tree : Expr} {text : Text}
    (derivation : Derives IsIdentifier .expr tokens tree) (written : Written true 0 tokens text)
    (readable : ∀ token ∈ tokens, Readable token) : parseExpr text = .ok tree :=
  parseExpr_eq_ok_iff.mpr ⟨tokens, run_of_derives derivation written, readable⟩

/-- A run that succeeds goes over the whole text. -/
theorem passes_of_run {text : Text} {tokens : List Token} {tree : Expr}
    (ran : Parser.run .initial [] 0 text = .ok (tokens, tree)) :
    ∃ last final left, Passes .initial 0 text tokens last final left ∧ FinalGap left ∧
      last.step (endOfText tokens.reverse) = .done tree := by
  obtain ⟨read, last, final, left, passes, ends⟩ := trace_of_run .initial [] 0 text
  rw [ran, List.append_nil] at ends
  generalize outcome : (Except.ok (tokens, tree) : Except SyntaxFault _) = result at ends
  cases ends with
  | done isFinal done =>
      cases outcome
      rw [List.reverse_reverse]
      exact ⟨last, final, left, passes, isFinal, done⟩
  | _ => cases outcome

/-- What the parser reads of a whole text, whether or not its strings are well formed. -/
theorem derives_of_run {text : Text} {tokens : List Token} {tree : Expr}
    (ran : Parser.run .initial [] 0 text = .ok (tokens, tree)) :
    Written false 0 tokens text ∧ Derives AnyName .expr tokens tree := by
  obtain ⟨last, final, left, passes, isFinal, done⟩ := passes_of_run ran
  have written := passes.written (.finish isFinal)
  rw [List.append_nil] at written
  exact ⟨written, ((passes.holds (.operand .nil)).done done).2⟩

theorem derives_of_parseExpr {text : Text} {tree : Expr} (parsed : parseExpr text = .ok tree) :
    ∃ tokens, Written false 0 tokens text ∧ (∀ token ∈ tokens, Readable token) ∧
      Derives AnyName .expr tokens tree := by
  obtain ⟨tokens, ran, readable⟩ := parseExpr_eq_ok_iff.mp parsed
  obtain ⟨written, derivation⟩ := derives_of_run ran
  exact ⟨tokens, written, readable, derivation⟩

/-- Two trees of one row of tokens are the same. -/
theorem Derives.unique {isIdentifier : Text → Prop} {tokens : List Token} {tree other : Expr}
    (derivation : Derives isIdentifier .expr tokens tree)
    (another : Derives isIdentifier .expr tokens other)
    (genuine : ∀ token ∈ tokens, Genuine token) : tree = other := by
  obtain ⟨inner, operand, flag, steps, _, wrapped⟩ := derivation.accepts genuine [] (fits_nil 0)
  obtain ⟨inner₂, operand₂, flag₂, steps₂, _, wrapped₂⟩ := another.accepts genuine [] (fits_nil 0)
  -- The machine is deterministic, so both derivations lead it into one state.
  have same := steps.unique steps₂
  simp only [List.append_nil, State.mk.injEq, Mode.operator.injEq] at same
  obtain ⟨⟨rfl, _⟩, rfl⟩ := same
  rw [← wrapped, ← wrapped₂]

/-- The parser accepts exactly the grammar, but for integers that are too long to be read.

A text that parses is a row of tokens with gaps between them, and the tokens derive its tree.  A row
of tokens that derives a tree, with strings that are well formed, parses to that tree wherever its
words are written with a gap behind each of them; its identifiers are then no words that could start
something else.  This fails exactly if one of its numbers is too long: then there is no tree, and
the parser stops at the first such number.  And a row of tokens has only one tree. -/
theorem parseExpr_adequate (text : Text) :
    (∀ tree, parseExpr text = .ok tree →
      ∃ tokens, Written false 0 tokens text ∧
        (∀ token ∈ tokens, hasBadEscape token = false ∧ ¬IsTooLong token) ∧
        Derives AnyName .expr tokens tree) ∧
    (∀ words shape tokens, Derives IsIdentifier .expr words shape → SameWords words tokens →
      Written true 0 tokens text → (∀ token ∈ tokens, hasBadEscape token = false) →
      ((∀ token ∈ tokens, ¬IsTooLong token) →
        ∃ tree, parseExpr text = .ok tree ∧ Derives IsIdentifier .expr tokens tree ∧
          tree.erase = shape.erase) ∧
      ∀ token ∈ tokens, IsTooLong token →
        ∃ before first behind, tokens = before ++ first :: behind ∧ IsTooLong first ∧
          (∀ earlier ∈ before, ¬IsTooLong earlier) ∧
          parseExpr text = .error (.tooManyDigits first)) ∧
    (∀ words others shape other, (∀ word ∈ words, Genuine word) → SameWords words others →
      Derives AnyName .expr words shape → Derives AnyName .expr others other →
      shape.erase = other.erase) := by
  refine ⟨?_, ?_, ?_⟩
  · intro tree parsed
    obtain ⟨tokens, written, readable, derivation⟩ := derives_of_parseExpr parsed
    exact ⟨tokens, written, fun token member => readable_iff.mp (readable token member), derivation⟩
  · intro words shape tokens derivation same written escapes
    obtain ⟨tree, placed, erased⟩ := derivation.of_sameWords same
    constructor
    · intro short
      have readable : ∀ token ∈ tokens, Readable token := fun token member =>
        readable_iff.mpr ⟨escapes token member, short token member⟩
      exact ⟨tree, parseExpr_of_derives placed written readable, placed, erased⟩
    · intro token member isTooLong
      obtain ⟨first, fault, isFirst⟩ := exists_firstFault member fun readable =>
        (readable_iff.mp readable).2 isTooLong
      have refused := parseExpr_eq_error_iff.mpr
        (.inr ⟨tokens, tree, first, run_of_derives placed written, isFirst⟩)
      have isMember := isFirst.mem
      obtain ⟨isFault, earlier⟩ := isFirst
      rcases faultOf?_eq_some_iff.mp isFault with ⟨bad, _⟩ | ⟨firstTooLong, rfl⟩
      · rw [escapes first isMember] at bad
        cases bad
      · exact ⟨_, first, _, rfl, firstTooLong,
          fun token member => (readable_iff.mp (earlier token member)).2, refused⟩
  · intro words others shape other genuine same derivation another
    obtain ⟨tree, placed, erased⟩ := another.of_sameWords same.symm
    rw [← erased, derivation.unique placed genuine]

/-- A difference with a comment behind it, as a row of tokens and as a text. -/
theorem parseExpr_adequate_difference :
    ∃ tree tokens, parseExpr "a - 1 # one less" = .ok tree ∧
      Written false 0 tokens "a - 1 # one less" ∧
      tree.erase = .binary ⟨0, 0⟩ .subtract (.identifier ⟨0, 0⟩ "a") (.number ⟨0, 0⟩ (.int 1)) := by
  obtain ⟨sound, complete, _⟩ := parseExpr_adequate "a - 1 # one less"
  have derivation : Derives IsIdentifier .expr
      [⟨.name, "a", 0⟩, ⟨.sum, "-", 2⟩, ⟨.number, "1", 4⟩]
      (.binary ⟨0, 5⟩ .subtract (.identifier ⟨0, 1⟩ "a") (.number ⟨4, 5⟩ (.int 1))) := by
    have left := Derives.operand (.plain (@Derives.identifier IsIdentifier ⟨.name, "a", 0⟩ rfl
      (by decide)))
    have right := Derives.operand (.plain (@Derives.number IsIdentifier ⟨.number, "1", 4⟩ rfl))
    have difference := @Derives.binary IsIdentifier 4 ⟨.sum, "-", 2⟩ _ _ _ _ rfl
      (left.loosen (by decide) (by decide)) (right.loosen (by decide) (by decide))
    exact .operation (difference.loosen (by decide) (by decide))
  have written : Written true 0 [⟨.name, "a", 0⟩, ⟨.sum, "-", 2⟩, ⟨.number, "1", 4⟩]
      "a - 1 # one less" := by
    have blank : Gap (" " : Text) := .blank (by decide) .nil
    have final : FinalGap (" # one less" : Text) :=
      @FinalGap.comment " " " one less" blank (by decide)
    have number := @NumberLexeme.intro "1" [] [] ⟨by decide, by decide⟩ .absent .absent
    have third := @Written.token true 3 _ _ ⟨.number, "1", 4⟩ _ blank number rfl
      (fun _ => .blank (by decide)) (.finish final)
    have second := @Written.token true 1 _ _ ⟨.sum, "-", 2⟩ _ blank
      (by simp [Genuine, Lexeme, spellings]) rfl (fun _ => .blank (by decide)) third
    have name : NameLexeme "a" := .intro (by decide) (by decide)
    exact @Written.token true 0 _ _ ⟨.name, "a", 0⟩ _ .nil name rfl
      (fun _ => .blank (by decide)) second
  have short : ∀ token ∈ [(⟨.name, "a", 0⟩ : Token), ⟨.sum, "-", 2⟩, ⟨.number, "1", 4⟩],
      ¬IsTooLong token := by
    simp only [← hasTooManyDigits_iff]
    decide
  obtain ⟨tree, parsed, _, erased⟩ :=
    (complete _ _ _ derivation (.refl _) written (by decide)).1 short
  obtain ⟨tokens, alsoWritten, _, _⟩ := sound _ parsed
  exact ⟨tree, tokens, parsed, alsoWritten, erased⟩

/-! ## An integer that is too long -/

/-- An integer with more digits than are read. -/
def longNumber : Text := List.replicate 5000 '9'

theorem isDecimalDigit_of_mem_longNumber {code : CodePoint} (member : code ∈ longNumber) :
    code.isDecimalDigit = true := by
  cases List.eq_of_mem_replicate member
  rfl

theorem isTooLong_longNumber (offset : Nat) : IsTooLong ⟨.number, longNumber, offset⟩ where
  isNumber := rfl
  digits _ member := isDecimalDigit_of_mem_longNumber member
  long := by
    rw [longNumber, List.length_replicate]
    decide

theorem numberLexeme_longNumber : NumberLexeme longNumber := by
  have nonempty : longNumber ≠ [] := List.ne_nil_of_length_pos (by
    rw [longNumber, List.length_replicate]
    exact Nat.zero_lt_succ _)
  have digits : Digits longNumber :=
    ⟨nonempty, fun _ member => isDecimalDigit_of_mem_longNumber member⟩
  have lexeme := NumberLexeme.intro digits .absent .absent
  rwa [List.append_nil, List.append_nil] at lexeme

/-- A long integer fits the grammar. -/
theorem run_longNumber : ∃ tree, Derives IsIdentifier .expr [⟨.number, longNumber, 0⟩] tree ∧
    Written true 0 [⟨.number, longNumber, 0⟩] longNumber ∧
    Parser.run .initial [] 0 longNumber = .ok ([⟨.number, longNumber, 0⟩], tree) := by
  have operand := Derives.operand (.plain
    (@Derives.number IsIdentifier ⟨.number, longNumber, 0⟩ rfl))
  have derivation := Derives.operation (operand.loosen (Nat.zero_le _) (Nat.le_refl _))
  have written := @Written.token true 0 _ _ ⟨.number, longNumber, 0⟩ _ .nil
    numberLexeme_longNumber rfl (fun _ => .nil) (.finish (.closed .nil))
  rw [List.nil_append, List.append_nil] at written
  exact ⟨_, derivation, written, run_of_derives derivation written⟩

/-- A derivation without strings whose text has no tree: an integer that is too long. -/
theorem longNumber_derives_without_tree :
    (∃ tree, Derives IsIdentifier .expr [⟨.number, longNumber, 0⟩] tree) ∧
      Written true 0 [⟨.number, longNumber, 0⟩] longNumber ∧
      ¬∃ tree, parseExpr longNumber = .ok tree := by
  obtain ⟨tree, derivation, written, ran⟩ := run_longNumber
  refine ⟨⟨tree, derivation⟩, written, ?_⟩
  rintro ⟨other, parsed⟩
  obtain ⟨tokens, alsoRan, readable⟩ := parseExpr_eq_ok_iff.mp parsed
  rw [ran] at alsoRan
  cases alsoRan
  have isReadable := readable _ (List.mem_singleton_self _)
  exact (readable_iff.mp isReadable).2 (isTooLong_longNumber 0)

end ConfigGraph.Grammar
