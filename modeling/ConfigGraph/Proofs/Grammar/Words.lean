import ConfigGraph.Proofs.Grammar.Adequacy

/-!
# Words that go on

Where a name can stand, the lexer takes a word as a whole: a longer word is no reserved word with
something behind it.  The words that start an operand or an expression are looked for in such places
only.  The words inside of bindings and conditionals are looked for where no name can stand, and are
taken there even if the word goes on.
-/

namespace ConfigGraph.Grammar

open ConfigGraph.Parser Lexer

/-- No word goes on behind a token. -/
def Whole (text : Text) (token : Token) : Prop :=
  ∀ code, text[token.stop]? = some code → isNamePart code = false

/-! ## Where words are looked for -/

theorem notMem_startWords {word : Keyword} (noStart : word ∉ startWords) :
    word = .inWord ∨ word = .thenWord ∨ word = .elseWord := by
  revert noStart
  cases word <;> decide

/-- Where a start word is accepted, a name is. -/
theorem name_mem_accepted {state : State} {word : Keyword}
    (accepted : Terminal.keyword word ∈ state.accepted) (starts : word ∈ startWords) :
    Terminal.name ∈ state.accepted := by
  have noEnd : ∀ word ∈ startWords, Terminal.keyword word ∉ Terminal.equals :: operandEnds := by
    decide
  obtain ⟨mode, frames⟩ := state
  cases mode with
  | operand => exact operandStarts_subset frames (by decide)
  | operator operand afterName =>
      cases afterName with
      | true => exact absurd accepted (noEnd word starts)
      | false => exact absurd (List.mem_cons_of_mem _ accepted) (noEnd word starts)
  | fieldEquals _ _ => exact absurd accepted (noEnd word starts)
  | _ => simp [State.accepted] at accepted

/-- Where another word is accepted, no name is, and no start word. -/
theorem accepted_of_notMem_startWords {state : State} {word : Keyword}
    (accepted : Terminal.keyword word ∈ state.accepted) (noStart : word ∉ startWords) :
    Terminal.name ∉ state.accepted ∧
      ∀ other ∈ startWords, Terminal.keyword other ∉ state.accepted := by
  have noName : Terminal.name ∉ state.accepted := fun name =>
    noStart (mem_startWords_of_accepted name accepted).2
  exact ⟨noName, fun other starts alsoAccepted => noName (name_mem_accepted alsoAccepted starts)⟩

/-! ## What the lexer takes of a word -/

/-- A row that is taken to its end stops there. -/
theorem stops_of_takeWhile {good : CodePoint → Bool} {row rest : Text}
    (taken : ((row ++ rest).takeWhile good).length = row.length) : Stops good rest := by
  rintro code rest rfl
  have isRow : (row ++ code :: rest).takeWhile good = row :=
    (List.prefix_of_prefix_length_le (List.takeWhile_prefix good) (List.prefix_append row _)
      (Nat.le_of_eq taken)).eq_of_length taken
  have all : ∀ other ∈ row, good other = true := by
    intro other member
    rw [← isRow] at member
    exact List.mem_takeWhile_imp member
  rw [List.takeWhile_append_of_pos all, List.append_right_eq_self, List.takeWhile_cons] at isRow
  cases isGood : good code with
  | false => rfl
  | true => simp [isGood] at isRow

/-- The words inside of bindings and conditionals start with different letters. -/
theorem eq_of_head? {one other : Keyword} (oneInside : one ∉ startWords)
    (otherInside : other ∉ startWords)
    (same : one.spelling.head? = other.spelling.head?) : one = other := by
  revert same
  rcases notMem_startWords oneInside with rfl | rfl | rfl <;>
    rcases notMem_startWords otherInside with rfl | rfl | rfl <;> decide

section Letters

variable {allowed : Terminal → Bool} {word : Keyword}

/-- Where no start word can stand, only one word fits the letters of another one. -/
theorem eq_of_startsWith (noStart : word ∉ startWords)
    (noOther : ∀ other ∈ startWords, allowed (.keyword other) = false) {other : Keyword}
    (can : allowed (.keyword other) = true) {rest : Text}
    (starts : other.spelling <+: word.spelling ++ rest) : other = word := by
  have nonempty (word : Keyword) : word.spelling ≠ [] :=
    @Lexeme.ne_nil .name _ (nameLexeme_spelling word)
  have otherNoStart : other ∉ startWords := by
    intro isStart
    rw [noOther other isStart] at can
    cases can
  obtain ⟨behind, split⟩ := starts
  have heads := congrArg List.head? split
  rw [List.head?_append_of_ne_nil _ (nonempty other),
    List.head?_append_of_ne_nil _ (nonempty word)] at heads
  exact eq_of_head? otherNoStart noStart heads

theorem symbol?_letters (can : allowed (.keyword word) = true) (noStart : word ∉ startWords)
    (noOther : ∀ other ∈ startWords, allowed (.keyword other) = false) (rest : Text) :
    symbol? allowed words (word.spelling ++ rest) =
      some (.keyword word, word.spelling.length - 1) := by
  have itself : (allowed (.keyword word) &&
      (word.spelling ++ rest).startsWith word.spelling) = true := by
    simp [can, Text.startsWith]
  have isFound : (words.find? fun entry =>
      allowed entry.2 && (word.spelling ++ rest).startsWith entry.1).isSome :=
    List.find?_isSome.mpr ⟨_, mem_words word, itself⟩
  obtain ⟨entry, found⟩ := Option.isSome_iff_exists.mp isFound
  obtain ⟨other, _, rfl⟩ := List.mem_map.mp (List.mem_of_find?_eq_some found)
  have suits := List.find?_some found
  simp only [Bool.and_eq_true, Text.startsWith, List.isPrefixOf_iff_prefix] at suits
  rw [symbol?, found, eq_of_startsWith noStart noOther suits.1 suits.2]
  rfl

/-- The letters of a word are taken where it can stand but no name and no start word, whatever
follows. -/
theorem match?_letters (can : allowed (.keyword word) = true) (noStart : word ∉ startWords)
    (noName : allowed .name = false)
    (noOther : ∀ other ∈ startWords, allowed (.keyword other) = false) (rest : Text) :
    ∃ first more, word.spelling = first :: more ∧
      match? allowed first (more ++ rest) = some (.keyword word, more.length) := by
  have taken := symbol?_letters can noStart noOther rest
  have isName := nameLexeme_spelling word
  generalize word.spelling = text at taken isName
  obtain @⟨first, more, starts, _⟩ := isName
  exact ⟨first, more, rfl, match?_eq_some_iff.mpr (.reserved starts noName taken)⟩

end Letters

/-! ## Words in texts -/

/-- A name, or a word that the lexer finds where a name can stand, goes on with nothing. -/
theorem Finds.stops {state : State} {offset : Nat} {text rest : Text} {token : Token}
    (finds : Finds state offset text token rest) (names : Terminal.name ∈ state.accepted)
    (isWord : NameLexeme token.lexeme) : Stops isNamePart rest := by
  obtain @⟨gap, tail, _, first, _, _, _, covered, _, found⟩ := finds
  rw [covered] at isWord
  obtain ⟨starts, _⟩ := isWord
  rw [match?_eq_some_iff.mpr (.word starts (List.contains_iff_mem.mpr names))] at found
  exact stops_of_takeWhile (Prod.mk.inj (Option.some.inj found)).2

/-- The parser finds every token that it passes, with the text in front of it behind it. -/
theorem Passes.finds_of_mem {state last : State} {offset final : Nat} {text left : Text}
    {tokens : List Token} (passes : Passes state offset text tokens last final left)
    {token : Token} (member : token ∈ tokens) :
    ∃ here place near before rest, Finds here place near token rest ∧ text = before ++ rest ∧
      token.stop = offset + before.length := by
  induction passes with
  | refl => cases member
  | @token state _ _ offset _ text behind _ first _ finds _ _ induction =>
      obtain ⟨front, rfl, place⟩ := finds.split
      rcases List.mem_cons.mp member with rfl | later
      · exact ⟨state, offset, _, front, behind, finds, rfl, place⟩
      · obtain ⟨here, there, near, before, rest, isFound, rfl, stop⟩ := induction later
        refine ⟨here, there, near, front ++ before, rest, isFound, ?_, ?_⟩
        · rw [List.append_assoc]
        · rw [stop, place, List.length_append, Nat.add_assoc]

theorem whole_of_stops {before rest : Text} {token : Token} (stops : Stops isNamePart rest)
    (stop : token.stop = 0 + before.length) : Whole (before ++ rest) token := by
  intro code isNext
  rw [stop, Nat.zero_add, List.getElem?_append_right (Nat.le_refl _), Nat.sub_self] at isNext
  cases rest with
  | nil => cases isNext
  | cons next rest =>
      cases isNext
      exact stops _ rest rfl

/-- Names and start words of a text are whole words. -/
theorem whole_of_run {text : Text} {tokens : List Token} {tree : Expr}
    (ran : Parser.run .initial [] 0 text = .ok (tokens, tree)) {token : Token}
    (member : token ∈ tokens)
    (isWord : token.terminal = .name ∨ ∃ word ∈ startWords, token.terminal = .keyword word) :
    Whole text token := by
  obtain ⟨last, final, left, passes, _, _⟩ := passes_of_run ran
  obtain ⟨here, place, near, before, rest, finds, rfl, stop⟩ := passes.finds_of_mem member
  obtain ⟨genuine, accepted⟩ := finds.genuine
  unfold Genuine at genuine
  refine whole_of_stops (finds.stops ?_ ?_) stop
  · rcases isWord with isName | ⟨word, starts, isKeyword⟩
    · rwa [isName] at accepted
    · rw [isKeyword] at accepted
      exact name_mem_accepted accepted starts
  · rcases isWord with isName | ⟨word, starts, isKeyword⟩
    · rwa [isName] at genuine
    · rw [isKeyword] at genuine
      rw [List.mem_singleton.mp genuine]
      exact nameLexeme_spelling word

/-- Texts in which a word inside of a binding or a conditional goes on. -/
def continued : Keyword → Text
  | .thenWord => "if a then1 else 2"
  | .elseWord => "if a then 1 else2"
  | _ => "let b = 1 inb"

/-- The place of that word in these texts. -/
def continuedWord : Keyword → Token
  | .thenWord => ⟨.keyword .thenWord, "then", 5⟩
  | .elseWord => ⟨.keyword .elseWord, "else", 12⟩
  | word => ⟨.keyword word, "in", 10⟩

theorem continued_goesOn {word : Keyword} (noStart : word ∉ startWords) :
    (parseExpr (continued word)).toOption.isSome = true ∧
      (Parser.run .initial [] 0 (continued word)).toOption.any
        (·.1.contains (continuedWord word)) = true ∧
      ((continued word)[(continuedWord word).stop]?).any isNamePart = true := by
  rcases notMem_startWords noStart with rfl | rfl | rfl <;> decide +kernel

theorem not_whole_continued {word : Keyword} (noStart : word ∉ startWords) :
    ∃ tokens tree, parseExpr (continued word) = .ok tree ∧
      Parser.run .initial [] 0 (continued word) = .ok (tokens, tree) ∧
      ∃ token ∈ tokens, token.terminal = .keyword word ∧ ¬Whole (continued word) token := by
  obtain ⟨parses, read, goesOn⟩ := continued_goesOn noStart
  cases parsed : parseExpr (continued word) with
  | error fault =>
      rw [parsed] at parses
      cases parses
  | ok tree =>
      obtain ⟨tokens, ran, _⟩ := parseExpr_eq_ok_iff.mp parsed
      rw [ran] at read
      obtain ⟨code, isNext, isPart⟩ := (Option.any_eq_true _ _).mp goesOn
      refine ⟨tokens, tree, rfl, ran, continuedWord word, List.contains_iff_mem.mp read, ?_, ?_⟩
      · rcases notMem_startWords noStart with rfl | rfl | rfl <;> rfl
      · intro whole
        rw [whole code isNext] at isPart
        cases isPart

/-- The words `let`, `fun`, `if`, `import`, `true`, `false` and `null` are whole words wherever a
text that parses has them, and so are names; the words `in`, `then` and `else` are not.

The reason is in the lexer.  Wherever one of the first words can stand, a name can stand too, and
the lexer takes all that could belong to a name.  Wherever one of the others can stand, it takes
their letters and leaves what follows them to the next token. -/
theorem whole_words (word : Keyword) :
    ((∀ text tokens tree, parseExpr text = .ok tree →
        Parser.run .initial [] 0 text = .ok (tokens, tree) →
        ∀ token ∈ tokens, token.terminal = .keyword word → Whole text token) ↔
      word ∈ startWords) ∧
    (∀ text tokens tree, Parser.run .initial [] 0 text = .ok (tokens, tree) →
      ∀ token ∈ tokens, token.terminal = .name → Whole text token) ∧
    ∀ state : State, Terminal.keyword word ∈ state.accepted →
      (word ∈ startWords → ∀ first rest, isNameStart first = true →
        ∃ terminal, match? (fun terminal => state.accepted.contains terminal) first rest =
          some (terminal, (rest.takeWhile isNamePart).length)) ∧
      (word ∉ startWords → ∀ rest, ∃ first more, word.spelling = first :: more ∧
        match? (fun terminal => state.accepted.contains terminal) first (more ++ rest) =
          some (.keyword word, more.length)) := by
  refine ⟨⟨fun whole => ?_, fun starts text tokens tree _ ran token member isWord => ?_⟩,
    fun text tokens tree ran token member isName => whole_of_run ran member (.inl isName),
    fun state accepted => ⟨?_, ?_⟩⟩
  · by_contra noStart
    obtain ⟨tokens, tree, parsed, ran, token, member, isWord, splits⟩ :=
      not_whole_continued noStart
    exact splits (whole _ _ _ parsed ran token member isWord)
  · exact whole_of_run ran member (.inr ⟨word, starts, isWord⟩)
  · intro starts first rest isStart
    have names := name_mem_accepted accepted starts
    exact ⟨_, match?_eq_some_iff.mpr (.word isStart (List.contains_iff_mem.mpr names))⟩
  · intro noStart rest
    obtain ⟨noName, noOther⟩ := accepted_of_notMem_startWords accepted noStart
    exact match?_letters (List.contains_iff_mem.mpr accepted) noStart (by simpa using noName)
      (fun other starts => by simpa using noOther other starts) rest

/-- In front of a name that starts like it, the word `let` is a whole word. -/
theorem whole_words_letter :
    ∃ tokens tree, Parser.run .initial [] 0 "let letter = true in letter" = .ok (tokens, tree) ∧
      tokens.map Token.lexeme = (["let", "letter", "=", "true", "in", "letter"] : List Text) ∧
      ∀ token ∈ tokens, token.terminal = .keyword .letWord →
        Whole "let letter = true in letter" token := by
  have read : ((Parser.run .initial [] 0 "let letter = true in letter").toOption.map
      (·.1.map Token.lexeme)) =
        some (["let", "letter", "=", "true", "in", "letter"] : List Text) := by
    decide +kernel
  cases parsed : parseExpr "let letter = true in letter" with
  | error fault =>
      have parses : (parseExpr "let letter = true in letter").toOption.isSome = true := by
        decide +kernel
      rw [parsed] at parses
      cases parses
  | ok tree =>
      obtain ⟨tokens, ran, _⟩ := parseExpr_eq_ok_iff.mp parsed
      rw [ran] at read
      have whole := (whole_words .letWord).1.mpr (by decide) _ _ _ parsed ran
      exact ⟨tokens, tree, ran, Option.some.inj read, whole⟩

/-- The word `in` of a binding takes the start of a longer word. -/
theorem word_splits_name :
    ∃ tokens tree, parseExpr "let b = 1 inb" = .ok tree ∧
      Parser.run .initial [] 0 "let b = 1 inb" = .ok (tokens, tree) ∧
      ∃ token ∈ tokens, token.terminal = .keyword .inWord ∧ ¬Whole "let b = 1 inb" token :=
  @not_whole_continued .inWord (by decide)

end ConfigGraph.Grammar
