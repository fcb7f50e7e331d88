import ConfigGraph.Proofs.Grammar.Literal

/-!
# The lexer and the lexical grammar

The lexer finds genuine tokens only (`lexeme_of_match?`).  Conversely it finds a genuine token with
a boundary behind it wherever the parser can take its terminal, unless the parser could take another
terminal in its place (`match?_of_lexeme`).
-/

namespace ConfigGraph.Grammar

open Lexer

/-! ## Reserved words and symbols -/

theorem ofSpelling?_spelling (word : Keyword) : Keyword.ofSpelling? word.spelling = some word := by
  cases word <;> decide

theorem spelling_of_ofSpelling? {text : Text} {word : Keyword}
    (found : Keyword.ofSpelling? text = some word) : word.spelling = text := by
  simpa using List.find?_some found

theorem nameLexeme_spelling (word : Keyword) : NameLexeme word.spelling := by
  cases word <;> exact .intro (by decide) (by decide)

/-- The entries of the tables are lexemes. -/
theorem lexeme_of_mem_symbols :
    ∀ entry ∈ symbols, entry.1 ∈ spellings entry.2 ∧ Lexeme entry.2 entry.1 := by
  simp [symbols, spellings, Lexeme]

theorem mem_words (word : Keyword) : (word.spelling, Terminal.keyword word) ∈ words := by
  cases word <;> simp [words, Keyword.all]

theorem lexeme_of_mem_words : ∀ entry ∈ words, Lexeme entry.2 entry.1 := by
  simp [words, Keyword.all, spellings, Lexeme]

/-- What a table finds at the start of a text is one of its entries. -/
theorem mem_of_symbol? {allowed : Terminal → Bool} {table : List (Text × Terminal)}
    {first : CodePoint} {rest : Text} {terminal : Terminal} {more : Nat}
    (found : symbol? allowed table (first :: rest) = some (terminal, more))
    (nonempty : ∀ entry ∈ table, entry.1 ≠ []) :
    (first :: rest.take more, terminal) ∈ table ∧ allowed terminal = true := by
  obtain ⟨⟨spelling, other⟩, isFirst, same⟩ := Option.map_eq_some_iff.mp found
  cases same
  have member := List.mem_of_find?_eq_some isFirst
  have suits := List.find?_some isFirst
  simp only [Bool.and_eq_true, Text.startsWith, List.isPrefixOf_iff_prefix] at suits
  obtain ⟨can, behind, split⟩ := suits
  obtain ⟨head, tail, rfl⟩ := List.exists_cons_of_ne_nil (nonempty _ member)
  obtain ⟨rfl, rfl⟩ := List.cons.inj split
  refine ⟨?_, can⟩
  simpa using member

/-- Whether a text starts with an entry is settled by the lexeme at its start. -/
theorem isPrefixOf_append {entry lexeme rest : Text} (delimited : Delimited rest)
    (inside : ∀ code ∈ entry, code ∉ boundaries) :
    entry.isPrefixOf (lexeme ++ rest) = entry.isPrefixOf lexeme := by
  induction lexeme generalizing entry with
  | nil =>
      cases entry with
      | nil => simp
      | cons code entry =>
          cases rest with
          | nil => rfl
          | cons head rest =>
              have different : code ≠ head := by
                rintro rfl
                exact inside code List.mem_cons_self delimited.head_mem
              simp [List.isPrefixOf, different]
  | cons head lexeme induction =>
      cases entry with
      | nil => simp
      | cons code entry =>
          have shorter := @induction entry fun code member =>
            inside code (List.mem_cons_of_mem _ member)
          simp only [List.cons_append, List.isPrefixOf, shorter]

/-- A table finds an entry if it finds no entry before it that the lexeme starts with. -/
theorem symbol?_of_mem {allowed : Terminal → Bool} {table : List (Text × Terminal)}
    {entry : Text × Terminal} {rest : Text} (member : entry ∈ table)
    (inside : ∀ other ∈ table, ∀ code ∈ other.1, code ∉ boundaries)
    (can : allowed entry.2 = true)
    (earlier : ∀ other ∈ table.takeWhile (· ≠ entry),
      other.1.isPrefixOf entry.1 = true → allowed other.2 = false)
    (delimited : Delimited rest) :
    symbol? allowed table (entry.1 ++ rest) = some (entry.2, entry.1.length - 1) := by
  have isFirst : (table.find? fun other =>
      allowed other.2 && (entry.1 ++ rest).startsWith other.1) = some entry := by
    rw [List.find?_eq_some_iff_append]
    constructor
    · simp [can, Text.startsWith]
    · obtain ⟨before, behind, split, notBefore⟩ := List.eq_append_cons_of_mem member
      refine ⟨before, behind, split, fun other isBefore => ?_⟩
      have reached : other ∈ table.takeWhile (· ≠ entry) := by
        rw [split, List.takeWhile_append_of_pos]
        · exact List.mem_append_left _ isBefore
        · intro another inBefore
          have different : another ≠ entry := by
            rintro rfl
            exact notBefore inBefore
          simpa using different
      have startsOrNot : (entry.1 ++ rest).startsWith other.1 = other.1.isPrefixOf entry.1 :=
        isPrefixOf_append delimited (inside other (split ▸ List.mem_append_left _ isBefore))
      simp only [startsOrNot, Bool.not_eq_true', Bool.and_eq_false_iff]
      cases starts : other.1.isPrefixOf entry.1 with
      | false => exact .inr rfl
      | true => exact .inl (earlier other reached starts)
  rw [symbol?, isFirst]
  rfl

theorem inside_of_mem_symbols : ∀ entry ∈ symbols, ∀ code ∈ entry.1, code ∉ boundaries := by decide

theorem inside_of_mem_words : ∀ entry ∈ words, ∀ code ∈ entry.1, code ∉ boundaries := by decide

/-- Only the minus sign is two entries; everywhere else the longest spelling comes first. -/
theorem earlier_symbols : ∀ entry ∈ symbols, ∀ other ∈ symbols.takeWhile (· ≠ entry),
    other.1.isPrefixOf entry.1 = true → other.2 = .sum ∧ entry.2 = .unary := by decide

theorem earlier_words : ∀ entry ∈ words, ∀ other ∈ words.takeWhile (· ≠ entry),
    ¬other.1.isPrefixOf entry.1 = true := by decide

theorem mem_symbols_or_keyword {terminal : Terminal} {text : Text}
    (member : text ∈ spellings terminal) :
    (text, terminal) ∈ symbols ∨ ∃ word, terminal = .keyword word ∧ text = word.spelling := by
  cases terminal with
  | keyword word => exact .inr ⟨word, rfl, List.mem_singleton.mp member⟩
  | _ =>
      left
      revert text
      decide

/-- No symbol starts like a token of another kind. -/
theorem head_of_mem_symbols : ∀ entry ∈ symbols, ∀ code ∈ entry.1.head?,
    isNameStart code = false ∧ code.isDecimalDigit = false ∧ code ≠ '"' ∧ code ∉ boundaries := by
  decide

/-! ## The next token -/

/-- The terminal of a word where a name can stand. -/
def wordTerminal (allowed : Terminal → Bool) (word : Text) : Terminal :=
  match Keyword.ofSpelling? word with
  | some keyword => if allowed (.keyword keyword) then .keyword keyword else .name
  | none => .name

/-- The number at the start of a text that goes on behind its first digit. -/
abbrev numberAt (first : CodePoint) (rest : Text) : Number.Literal :=
  .after CodePoint.isDecimalDigit (first :: rest.takeWhile CodePoint.isDecimalDigit)
    (rest.drop (rest.takeWhile CodePoint.isDecimalDigit).length)

/-- The ways in which the lexer finds a token, by the code point that it starts with. -/
inductive Matches (allowed : Terminal → Bool) (first : CodePoint) (rest : Text) :
    Terminal → Nat → Prop where
  | word :
      isNameStart first = true →
      allowed .name = true →
      Matches allowed first rest (wordTerminal allowed (first :: rest.takeWhile isNamePart))
        (rest.takeWhile isNamePart).length
  | reserved {terminal : Terminal} {more : Nat} :
      isNameStart first = true →
      allowed .name = false →
      symbol? allowed words (first :: rest) = some (terminal, more) →
      Matches allowed first rest terminal more
  | number :
      isNameStart first = false →
      first.isDecimalDigit = true →
      allowed .number = true →
      Matches allowed first rest .number ((numberAt first rest).length - 1)
  | string {more : Nat} :
      first = '"' →
      allowed .string = true →
      stringLength? rest = some more →
      Matches allowed first rest .string more
  | symbol {terminal : Terminal} {more : Nat} :
      isNameStart first = false →
      first.isDecimalDigit = false →
      first ≠ '"' →
      symbol? allowed symbols (first :: rest) = some (terminal, more) →
      Matches allowed first rest terminal more

theorem match?_eq_some_iff {allowed : Terminal → Bool} {first : CodePoint} {rest : Text}
    {terminal : Terminal} {more : Nat} :
    match? allowed first rest = some (terminal, more) ↔
      Matches allowed first rest terminal more := by
  have word (starts : isNameStart first = true) (names : allowed .name = true) :
      match? allowed first rest = some (wordTerminal allowed (first :: rest.takeWhile isNamePart),
        (rest.takeWhile isNamePart).length) := by
    rw [match?, if_pos starts, if_pos names, wordTerminal]
    dsimp only
    cases Keyword.ofSpelling? (first :: rest.takeWhile isNamePart) <;> rfl
  constructor
  · intro found
    cases starts : isNameStart first with
    | true =>
        cases names : allowed .name with
        | true =>
            rw [word starts names] at found
            cases found
            exact .word starts names
        | false =>
            rw [match?, if_pos starts, if_neg (by simp [names])] at found
            exact .reserved starts names found
    | false =>
        rw [match?, if_neg (by simp [starts])] at found
        cases digit : first.isDecimalDigit with
        | true =>
            rw [if_pos digit] at found
            split at found
            case isTrue numbers =>
              cases found
              exact .number starts digit numbers
            case isFalse => cases found
        | false =>
            rw [if_neg (by simp [digit])] at found
            split at found
            case isTrue quote =>
              split at found
              case isTrue strings =>
                obtain ⟨length, inner, same⟩ := Option.map_eq_some_iff.mp found
                cases same
                exact .string quote strings inner
              case isFalse => cases found
            case isFalse noQuote => exact .symbol starts digit noQuote found
  · intro found
    cases found with
    | word starts names => exact word starts names
    | reserved starts names found =>
        rw [match?, if_pos starts, if_neg (by simp [names]), found]
    | number starts digit numbers =>
        rw [match?, if_neg (by simp [starts]), if_pos digit, if_pos numbers]
    | string quote strings inner =>
        rw [quote, match?, if_neg (by decide), if_neg (by decide), if_pos rfl, if_pos strings,
          inner, Option.map_some]
    | symbol starts digit noQuote found =>
        rw [match?, if_neg (by simp [starts]), if_neg (by simp [digit]), if_neg noQuote, found]

/-- Where a name can stand, a word is one, or a reserved word that can stand there too. -/
theorem lexeme_wordTerminal {allowed : Terminal → Bool} {word : Text} (isName : NameLexeme word)
    (names : allowed .name = true) :
    Lexeme (wordTerminal allowed word) word ∧ allowed (wordTerminal allowed word) = true := by
  unfold wordTerminal
  split
  case h_1 keyword reserved =>
    split
    case isTrue can => exact ⟨List.mem_singleton.mpr (spelling_of_ofSpelling? reserved).symm, can⟩
    case isFalse => exact ⟨isName, names⟩
  case h_2 => exact ⟨isName, names⟩

/-- The lexer takes lexemes of terminals that it looks for. -/
theorem lexeme_of_match? {allowed : Terminal → Bool} {first : CodePoint} {rest : Text}
    {terminal : Terminal} {more : Nat} (found : match? allowed first rest = some (terminal, more)) :
    Lexeme terminal (first :: rest.take more) ∧ allowed terminal = true := by
  cases match?_eq_some_iff.mp found with
  | word starts names =>
      rw [take_length_takeWhile]
      exact lexeme_wordTerminal (.intro starts fun _ member => List.mem_takeWhile_imp member) names
  | reserved _ _ found =>
      obtain ⟨member, can⟩ := mem_of_symbol? found (by decide)
      exact ⟨lexeme_of_mem_words _ member, can⟩
  | number _ digit numbers => exact ⟨numberLexeme_of_take digit, numbers⟩
  | string quote strings inner =>
      obtain ⟨body, others, isBody, rfl, rfl⟩ := stringBody_of_stringLength? inner
      have taken : (body ++ CodePoint.ofChar '"' :: others).take (body.length + 1) =
          body ++ [CodePoint.ofChar '"'] := List.take_length_add_append 1
      rw [taken, quote]
      exact ⟨.intro isBody, strings⟩
  | symbol _ _ _ found =>
      obtain ⟨member, can⟩ := mem_of_symbol? found (by decide)
      exact ⟨(lexeme_of_mem_symbols _ member).2, can⟩

theorem room_of_symbol? {allowed : Terminal → Bool} {table : List (Text × Terminal)}
    {first : CodePoint} {rest : Text} {terminal : Terminal} {more : Nat}
    (found : symbol? allowed table (first :: rest) = some (terminal, more)) :
    more ≤ rest.length := by
  obtain ⟨⟨spelling, other⟩, isFirst, same⟩ := Option.map_eq_some_iff.mp found
  cases same
  have suits := List.find?_some isFirst
  simp only [Bool.and_eq_true, Text.startsWith, List.isPrefixOf_iff_prefix] at suits
  have room := suits.2.length_le
  rw [List.length_cons] at room
  dsimp only
  omega

/-- The token that the lexer finds has room in the text. -/
theorem room_of_match? {allowed : Terminal → Bool} {first : CodePoint} {rest : Text}
    {terminal : Terminal} {more : Nat} (found : match? allowed first rest = some (terminal, more)) :
    more ≤ rest.length := by
  cases match?_eq_some_iff.mp found with
  | word _ _ => exact (List.takeWhile_prefix _).length_le
  | reserved _ _ found => exact room_of_symbol? found
  | number _ _ _ =>
      have digits : (rest.takeWhile CodePoint.isDecimalDigit).length ≤ rest.length :=
        (List.takeWhile_prefix _).length_le
      have literal : (numberAt first rest).length ≤ _ := Number.Literal.length_after_le ..
      rw [List.length_cons, List.length_drop] at literal
      omega
  | string _ _ inner => exact room_of_stringLength? inner
  | symbol _ _ _ found => exact room_of_symbol? found

/-- The lexer finds a symbol in front of a boundary.  It takes the minus sign as an operator between
operands wherever there can be one. -/
theorem match?_symbol {allowed : Terminal → Bool} {terminal : Terminal} {text rest : Text}
    (member : (text, terminal) ∈ symbols) (delimited : Delimited rest)
    (can : allowed terminal = true) (notSum : terminal = .unary → allowed .sum = false) :
    ∃ first more, text = first :: more ∧ first ∉ boundaries ∧
      match? allowed first (more ++ rest) = some (terminal, more.length) := by
  have nonempty : ∀ entry ∈ symbols, entry.1 ≠ [] := by decide
  obtain ⟨first, more, rfl⟩ := List.exists_cons_of_ne_nil (nonempty _ member)
  obtain ⟨noName, noDigit, noQuote, inside⟩ := head_of_mem_symbols _ member first rfl
  have found : symbol? allowed symbols ((first :: more) ++ rest) = some (terminal, more.length) :=
    symbol?_of_mem member inside_of_mem_symbols can
      (fun other reached starts => by
        obtain ⟨isSum, isUnary⟩ := earlier_symbols _ member other reached starts
        rw [isSum]
        exact notSum isUnary)
      delimited
  refine ⟨first, more, rfl, inside, ?_⟩
  rw [match?, if_neg (by simp [noName]), if_neg (by simp [noDigit]), if_neg noQuote]
  exact found

/-- The lexer finds a reserved word in front of a boundary, whether or not names can stand there. -/
theorem match?_keyword {allowed : Terminal → Bool} {word : Keyword} {rest : Text}
    (delimited : Delimited rest) (can : allowed (.keyword word) = true) :
    ∃ first more, word.spelling = first :: more ∧ first ∉ boundaries ∧
      match? allowed first (more ++ rest) = some (.keyword word, more.length) := by
  have found : symbol? allowed words (word.spelling ++ rest) =
      some (.keyword word, word.spelling.length - 1) :=
    symbol?_of_mem (mem_words word) inside_of_mem_words can
      (fun other reached starts =>
        absurd starts (earlier_words _ (mem_words word) other reached))
      delimited
  have reserved := ofSpelling?_spelling word
  have isName := nameLexeme_spelling word
  generalize word.spelling = text at found reserved isName
  obtain @⟨first, more, start, parts⟩ := isName
  refine ⟨first, more, rfl, notMem_boundaries_of_isNameStart start, ?_⟩
  have row : (more ++ rest).takeWhile isNamePart = more :=
    (delimited.stops isNamePart_boundary).takeWhile_append parts
  rw [match?, if_pos start]
  by_cases names : allowed .name = true
  · simp only [names, if_true, row, reserved, can]
  · rw [if_neg names]
    exact found

/-- The lexer finds a lexeme in front of a boundary, unless a name is a reserved word that could
stand there too, or a sign before an operand could be one between operands. -/
theorem match?_of_lexeme {allowed : Terminal → Bool} {terminal : Terminal} {text rest : Text}
    (lexeme : Lexeme terminal text) (delimited : Delimited rest) (can : allowed terminal = true)
    (notReserved : terminal = .name →
      ∀ word, Keyword.ofSpelling? text = some word → allowed (.keyword word) = false)
    (notSum : terminal = .unary → allowed .sum = false) :
    ∃ first more, text = first :: more ∧ first ∉ boundaries ∧
      match? allowed first (more ++ rest) = some (terminal, more.length) := by
  have spelled (member : text ∈ spellings terminal) : ∃ first more, text = first :: more ∧
      first ∉ boundaries ∧ match? allowed first (more ++ rest) = some (terminal, more.length) := by
    rcases mem_symbols_or_keyword member with isSymbol | ⟨word, rfl, rfl⟩
    · exact match?_symbol isSymbol delimited can notSum
    · exact match?_keyword delimited can
  cases terminal with
  | name =>
      obtain @⟨first, more, start, parts⟩ := lexeme
      have row : (more ++ rest).takeWhile isNamePart = more :=
        (delimited.stops isNamePart_boundary).takeWhile_append parts
      refine ⟨first, more, rfl, notMem_boundaries_of_isNameStart start, ?_⟩
      rw [match?, if_pos start]
      simp only [can, if_true, row]
      cases reserved : Keyword.ofSpelling? (first :: more) with
      | none => rfl
      | some word => simp [notReserved rfl word reserved]
  | number =>
      obtain ⟨first, more, rfl⟩ := List.exists_cons_of_ne_nil (Lexeme.ne_nil lexeme)
      obtain ⟨digit, length⟩ := length_after_append lexeme delimited
      refine ⟨first, more, rfl, ?_, ?_⟩
      · intro member
        rw [isDecimalDigit_boundary first member] at digit
        cases digit
      · rw [match?, if_neg (not_isNameStart_of_isDecimalDigit digit), if_pos digit, if_pos can]
        simp only [length, Nat.add_sub_cancel]
  | string =>
      obtain @⟨body, isBody⟩ := lexeme
      refine ⟨_, _, rfl, by decide, ?_⟩
      have length := isBody.stringLength?_append rest
      rw [match?, if_neg (by decide), if_neg (by decide), if_pos rfl, if_pos can,
        List.append_assoc, List.singleton_append, length]
      simp
  | finish => cases lexeme
  | _ => exact spelled lexeme

end ConfigGraph.Grammar
