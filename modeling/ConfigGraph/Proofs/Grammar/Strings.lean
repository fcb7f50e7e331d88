import ConfigGraph.Proofs.Error
import ConfigGraph.Proofs.Grammar.Leaves
import ConfigGraph.Proofs.Json.Spelling

/-!
# Strings of documents

Every spelling of a string is a string of the lexical grammar, and means the string wherever it
stands: as an expression, as the path of an import, or as the name of a field.  The lexical grammar
allows other strings too.  A document with such strings is refused at the first of them, unless an
integer that is too long stands in front of it.
-/

namespace ConfigGraph.Grammar

open ConfigGraph.Parser ConfigGraph.Expr Json

/-! ## Spellings in the lexical grammar -/

/-- A code point that may stand for itself in a string of a document. -/
structure IsRaw (code : CodePoint) : Prop extends IsPlain false code where
  inLine : code ≠ '\n'

theorem isRaw_of_hexDigit? {code : CodePoint} {digit : Nat}
    (isDigit : code.hexDigit? = some digit) : IsRaw code := by
  refine ⟨⟨?_, ?_, (absurd · Bool.false_ne_true)⟩, ?_⟩
  all_goals
    rintro rfl
    cases isDigit

theorem stringBody_append_unit {code : CodePoint} {piece rest : Text}
    (isUnit : SpellsUnit code piece) (isBody : StringBody rest) : StringBody (piece ++ rest) := by
  obtain ⟨a, b, c, d, rfl, digits⟩ := isUnit.fourDigits?
  simp only [fourDigits?, Option.bind_eq_bind, Option.bind_eq_some_iff] at digits
  obtain ⟨_, first, _, second, _, third, _, fourth, _⟩ := digits
  have plain {digit : CodePoint} {number : Nat} {rest : Text}
      (isDigit : digit.hexDigit? = some number) (isBody : StringBody rest) :
      StringBody (digit :: rest) := by
    have isRaw := isRaw_of_hexDigit? isDigit
    exact .plain isRaw.noQuote isRaw.noEscape isRaw.inLine isBody
  apply StringBody.escape (by decide)
  exact plain first (plain second (plain third (plain fourth isBody)))

theorem stringBody_append {code : CodePoint} {piece rest : Text} (spells : Spells IsRaw code piece)
    (isBody : StringBody rest) : StringBody (piece ++ rest) := by
  cases spells with
  | plain isRaw => exact .plain isRaw.noQuote isRaw.noEscape isRaw.inLine isBody
  | short listed =>
      have inLine : ∀ entry ∈ shortEscapes, entry.1 ≠ '\n' := by decide
      exact .escape (inLine _ listed) isBody
  | unit isUnit => exact stringBody_append_unit isUnit isBody
  | pair _ isHigh isLow =>
      rw [List.append_assoc]
      apply stringBody_append_unit isHigh
      exact stringBody_append_unit isLow isBody

theorem stringBody_of_spelling {value body : Text} (spelling : Spelling IsRaw value body) :
    StringBody body := by
  induction spelling with
  | nil => exact .nil
  | cons spells _ induction => exact stringBody_append spells induction

/-- A token that is a spelling between quotes means what is spelled. -/
theorem stringValue_quoted {value body : Text} (spelling : Spelling IsRaw value body)
    (unpaired : value.Unpaired) {token : Token} (lexeme : token.lexeme = quoted body) :
    stringValue token = value := by
  have readable := spelling.mono fun _ isRaw => isRaw.toIsPlain
  rw [stringValue, lexeme, stringLiteral?_quoted readable unpaired, Option.getD_some]

/-- A string token that is not well formed. -/
def IsMalformed (token : Token) : Prop := token.terminal = .string ∧ ¬WellFormed token.lexeme

theorem hasBadEscape_iff {token : Token} : hasBadEscape token = true ↔ IsMalformed token := by
  rw [hasBadEscape, Bool.and_eq_true, beq_iff_eq, IsMalformed, ← isSome_stringLiteral?_iff,
    Bool.not_eq_true, Option.isSome_eq_false_iff]

/-- A token cannot be read if it is a string that is not well formed, or a number that is too
long. -/
theorem readable_iff_wellFormed {token : Token} :
    Readable token ↔ ¬IsMalformed token ∧ ¬IsTooLong token := by
  rw [readable_iff, ← hasBadEscape_iff, Bool.not_eq_true]

/-! ## Small documents -/

/-- An operand is an expression. -/
theorem Derives.whole {isIdentifier : Text → Prop} {tokens : List Token} {tree : Expr}
    (derivation : Derives isIdentifier .primary tokens tree) :
    Derives isIdentifier .expr tokens tree := by
  apply Derives.operation
  exact (Derives.operand derivation).loosen (Nat.zero_le _) (Nat.le_refl _)

/-- Words with a blank in front of each. -/
def spacedText (words : List (Terminal × Text)) : Text :=
  words.flatMap fun word => CodePoint.ofChar ' ' :: word.2

def spacedTokens : Nat → List (Terminal × Text) → List Token
  | _, [] => []
  | offset, (terminal, lexeme) :: words =>
      ⟨terminal, lexeme, offset + 1⟩ :: spacedTokens (offset + 1 + lexeme.length) words

theorem delimited_spacedText (words : List (Terminal × Text)) : Delimited (spacedText words) := by
  cases words with
  | nil => exact .nil
  | cons word words => exact .blank rfl

theorem written_spacedTokens (offset : Nat) {words : List (Terminal × Text)}
    (lexemes : ∀ word ∈ words, Lexeme word.1 word.2) :
    Written true offset (spacedTokens offset words) (spacedText words) := by
  induction words generalizing offset with
  | nil => exact .finish (.closed .nil)
  | cons word words induction =>
      obtain ⟨lexeme, others⟩ := List.forall_mem_cons.mp lexemes
      have blank : Gap [CodePoint.ofChar ' '] := .blank rfl .nil
      exact .token blank lexeme rfl (fun _ => delimited_spacedText words) (induction _ others)

theorem run_of_words {terminal : Terminal} {lexeme : Text} {words : List (Terminal × Text)}
    {tree : Expr} (lexemes : ∀ word ∈ (terminal, lexeme) :: words, Lexeme word.1 word.2)
    (derivation : Derives IsIdentifier .primary
      (⟨terminal, lexeme, 0⟩ :: spacedTokens lexeme.length words) tree) :
    Parser.run .initial [] 0 (lexeme ++ spacedText words) =
      .ok (⟨terminal, lexeme, 0⟩ :: spacedTokens lexeme.length words, tree) := by
  obtain ⟨isLexeme, others⟩ := List.forall_mem_cons.mp lexemes
  have behind := written_spacedTokens lexeme.length others
  rw [← Nat.zero_add lexeme.length] at behind
  have written := @Written.token true 0 [] _ ⟨terminal, lexeme, 0⟩ _ .nil isLexeme rfl
    (fun _ => delimited_spacedText words) behind
  rw [Nat.zero_add] at written
  exact run_of_derives derivation.whole written

theorem parseExpr_of_words {terminal : Terminal} {lexeme : Text} {words : List (Terminal × Text)}
    {tree : Expr} (lexemes : ∀ word ∈ (terminal, lexeme) :: words, Lexeme word.1 word.2)
    (derivation : Derives IsIdentifier .primary
      (⟨terminal, lexeme, 0⟩ :: spacedTokens lexeme.length words) tree)
    (readable : ∀ token ∈ (⟨terminal, lexeme, 0⟩ : Token) :: spacedTokens lexeme.length words,
      Readable token) :
    parseExpr (lexeme ++ spacedText words) = .ok tree :=
  parseExpr_eq_ok_iff.mpr ⟨_, run_of_words lexemes derivation, readable⟩

/-- A record of one field, which holds null. -/
theorem derives_field {isIdentifier : Text → Prop} {opening name equals null closing : Token}
    (isOpening : opening.terminal = .openBrace) (isName : name.terminal = .string)
    (isEquals : equals.terminal = .equals) (isNull : null.terminal = .keyword .nullWord)
    (isClosing : closing.terminal = .closeBrace) :
    Derives isIdentifier .atom [opening, name, equals, null, closing]
      (.record ⟨opening.start, closing.stop⟩
        [(⟨name.start, null.stop⟩, stringValue name, .null null.span)]) := by
  let item : FieldItem := ⟨name, equals, [null], .null null.span⟩
  have value : Derives isIdentifier .expr item.values item.value :=
    Derives.whole (.plain (.nullWord isNull))
  have wellFormed : item.WellFormed := ⟨.inr isName, isEquals⟩
  have whole := Derives.record isOpening (.single item) (List.forall_mem_singleton.mpr wellFormed)
    (List.forall_mem_singleton.mpr value) .nothing isClosing
  rwa [List.map_singleton, FieldItem.field, fieldNameOf_string isName] at whole

/-- An array of two tokens. -/
theorem derives_pair {isIdentifier : Text → Prop} {opening first comma second closing : Token}
    {left right : Expr} (isOpening : opening.terminal = .openBracket)
    (firstDerives : Derives isIdentifier .expr [first] left) (isComma : comma.terminal = .comma)
    (secondDerives : Derives isIdentifier .expr [second] right)
    (isClosing : closing.terminal = .closeBracket) :
    Derives isIdentifier .atom [opening, first, comma, second, closing]
      (.array ⟨opening.start, closing.stop⟩ [left, right]) := by
  have separated : Separated Item.tokens [⟨[first], left⟩, ⟨[second], right⟩]
      [first, comma, second] :=
    @Separated.more _ Item.tokens comma [⟨[first], left⟩] _ ⟨[second], right⟩ (.single _) isComma
  exact .array isOpening separated (by simpa using ⟨firstDerives, secondDerives⟩) .nothing isClosing

section Documents

variable {value body : Text}

/-- A spelling in quotes is a string that can be read. -/
theorem lexeme_of_spelling (spelling : Spelling IsRaw value body) (offset : Nat) :
    Lexeme .string (quoted body) ∧ Readable ⟨.string, quoted body, offset⟩ := by
  have plain := spelling.mono fun _ isRaw => isRaw.toIsPlain
  refine ⟨.intro (stringBody_of_spelling spelling), ?_⟩
  rw [readable_iff_wellFormed]
  exact ⟨fun isMalformed => isMalformed.2 ⟨value, body, plain, rfl⟩, fun isTooLong =>
    nomatch isTooLong.isNumber⟩

theorem parseExpr_quoted (spelling : Spelling IsRaw value body) (unpaired : value.Unpaired) :
    parseExpr (quoted body) = .ok (.string ⟨0, (quoted body).length⟩ value) := by
  obtain ⟨lexeme, escape⟩ := lexeme_of_spelling spelling 0
  have derivation : Derives IsIdentifier .primary [⟨.string, quoted body, 0⟩] _ :=
    .plain (.string rfl)
  have parsed := @parseExpr_of_words _ _ [] _ (List.forall_mem_singleton.mpr lexeme) derivation
    (List.forall_mem_singleton.mpr escape)
  rw [stringValue_quoted spelling unpaired rfl] at parsed
  rwa [spacedText, List.flatMap_nil, List.append_nil, Token.span, Token.stop, Nat.zero_add]
    at parsed

theorem parseExpr_import (spelling : Spelling IsRaw value body) (unpaired : value.Unpaired) :
    ∃ span, parseExpr ("import " ++ quoted body) = .ok (.importOf span value) := by
  obtain ⟨lexeme, escape⟩ := lexeme_of_spelling spelling 7
  let words : List (Terminal × Text) := [(.string, quoted body)]
  have derivation : Derives IsIdentifier .primary
      (⟨.keyword .importWord, "import", 0⟩ :: spacedTokens 6 words) _ :=
    .plain (.importOf rfl rfl)
  have parsed := @parseExpr_of_words _ _ words _ ?_ derivation ?_
  · rw [stringValue_quoted spelling unpaired rfl] at parsed
    simp only [words, spacedText, List.flatMap_singleton] at parsed
    exact ⟨_, parsed⟩
  · simp only [words, List.forall_mem_cons]
    exact ⟨List.mem_singleton_self _, lexeme, List.forall_mem_nil _⟩
  · simp only [words, spacedTokens, List.forall_mem_cons]
    exact ⟨rfl, escape, List.forall_mem_nil _⟩

theorem parseExpr_field (spelling : Spelling IsRaw value body) (unpaired : value.Unpaired) :
    ∃ span field inner, parseExpr ("\x7b " ++ quoted body ++ " = null \x7d") =
      .ok (.record span [(field, value, .null inner)]) := by
  obtain ⟨lexeme, escape⟩ := lexeme_of_spelling spelling 2
  let words : List (Terminal × Text) :=
    [(.string, quoted body), (.equals, "="), (.keyword .nullWord, "null"), (.closeBrace, "\x7d")]
  have derivation : Derives IsIdentifier .primary
      (⟨.openBrace, "\x7b", 0⟩ :: spacedTokens 1 words) _ :=
    .plain (derives_field rfl rfl rfl rfl rfl)
  have parsed := @parseExpr_of_words _ _ words _ ?_ derivation ?_
  · rw [stringValue_quoted spelling unpaired rfl] at parsed
    simp only [words, spacedText, List.flatMap_cons, List.flatMap_nil, List.append_nil] at parsed
    rw [List.append_assoc]
    exact ⟨_, _, _, parsed⟩
  · simp only [words, List.forall_mem_cons]
    exact ⟨List.mem_singleton_self _, lexeme, List.mem_singleton_self _,
      List.mem_singleton_self _, List.mem_singleton_self _, List.forall_mem_nil _⟩
  · simp only [words, spacedTokens, List.forall_mem_cons]
    exact ⟨rfl, escape, rfl, rfl, rfl, List.forall_mem_nil _⟩

theorem parseExpr_access (spelling : Spelling IsRaw value body) (unpaired : value.Unpaired) :
    ∃ span target, parseExpr ("config . " ++ quoted body) =
      .ok (.access span (.identifier target "config") value) := by
  obtain ⟨lexeme, escape⟩ := lexeme_of_spelling spelling 9
  let words : List (Terminal × Text) := [(.dot, "."), (.string, quoted body)]
  have target : Derives IsIdentifier .primary [⟨.name, "config", 0⟩] _ :=
    .plain (.identifier rfl (by decide))
  have derivation : Derives IsIdentifier .primary
      (⟨.name, "config", 0⟩ :: spacedTokens 6 words) _ :=
    target.access rfl (.inr rfl)
  have parsed := @parseExpr_of_words _ _ words _ ?_ derivation ?_
  · rw [fieldNameOf_string rfl, stringValue_quoted spelling unpaired rfl] at parsed
    simp only [words, spacedText, List.flatMap_cons, List.flatMap_nil, List.append_nil] at parsed
    exact ⟨_, _, parsed⟩
  · simp only [words, List.forall_mem_cons]
    exact ⟨.intro rfl (by decide), List.mem_singleton_self _, lexeme, List.forall_mem_nil _⟩
  · simp only [words, spacedTokens, List.forall_mem_cons]
    exact ⟨rfl, rfl, escape, List.forall_mem_nil _⟩

end Documents

/-! ## Strings that are not well formed -/

/-- All other tokens that cannot be read stand behind the first one. -/
theorem FirstFault.start_lt {tokens : List Token} {token other : Token} {fault : SyntaxFault}
    {low high : Nat} (first : FirstFault tokens token fault) (ordered : Ordered low tokens high)
    (member : other ∈ tokens) (unreadable : ¬Readable other) :
    other = token ∨ token.start < other.start := by
  obtain ⟨_, earlier⟩ := first
  rcases List.mem_append.mp member with isBefore | others
  · exact absurd (earlier other isBefore) unreadable
  · rcases List.mem_cons.mp others with isFirst | isBehind
    · exact .inl isFirst
    · obtain ⟨_, _, inOrder⟩ := ordered.split
      obtain ⟨_, inside, rest⟩ := ordered_cons.mp inOrder
      have later := rest.start_le isBehind
      exact .inr (by omega)

/-- A token of a row, with every other one that cannot be read behind it. -/
structure IsFirst (tokens : List Token) (token : Token) : Prop where
  member : token ∈ tokens
  earliest : ∀ other ∈ tokens, IsMalformed other ∨ IsTooLong other →
    other = token ∨ token.start < other.start

theorem IsFirst.start_le {tokens : List Token} {token other : Token}
    (isFirst : IsFirst tokens token) (member : other ∈ tokens)
    (unreadable : IsMalformed other ∨ IsTooLong other) : token.start ≤ other.start := by
  rcases isFirst.earliest other member unreadable with rfl | before
  · exact Nat.le_refl _
  · exact Nat.le_of_lt before

theorem not_isMalformed_of_isTooLong {token : Token} (isTooLong : IsTooLong token) :
    ¬IsMalformed token := by
  rintro ⟨isString, _⟩
  rw [isTooLong.isNumber] at isString
  cases isString

/-- Only the first token that cannot be read is in front of all others. -/
theorem IsFirst.eq_of_start_le {tokens : List Token} {token other : Token}
    (isFirst : IsFirst tokens token) (member : other ∈ tokens)
    (unreadable : IsMalformed other ∨ IsTooLong other) (leads : other.start ≤ token.start) :
    other = token :=
  (isFirst.earliest other member unreadable).resolve_right (Nat.not_lt_of_ge leads)

/-- Some malformed string is in front of all integers that are too long just when the first token
that cannot be read is malformed. -/
theorem IsFirst.isMalformed_iff {tokens : List Token} {token : Token}
    (isFirst : IsFirst tokens token) (unreadable : IsMalformed token ∨ IsTooLong token) :
    (∃ other ∈ tokens, IsMalformed other ∧
      ∀ number ∈ tokens, IsTooLong number → other.start < number.start) ↔ IsMalformed token := by
  constructor
  · rintro ⟨other, member, isMalformed, leads⟩
    refine unreadable.resolve_right fun isTooLong => ?_
    have behind := leads token isFirst.member isTooLong
    exact absurd (isFirst.start_le member (.inl isMalformed)) (Nat.not_le_of_gt behind)
  · intro isMalformed
    refine ⟨token, isFirst.member, isMalformed, fun number member isTooLong => ?_⟩
    refine (isFirst.earliest number member (.inr isTooLong)).resolve_left ?_
    rintro rfl
    exact not_isMalformed_of_isTooLong isTooLong isMalformed

/-- What becomes of a document that the parser reads to its end. -/
theorem parseDocument_of_run {source : Source} {tokens : List Token} {tree : Expr}
    (ran : Parser.run .initial [] 0 source.text = .ok (tokens, tree)) :
    (parseDocument source .cairn = .ok (.expr tree) ∧
        ∀ token ∈ tokens, ¬IsMalformed token ∧ ¬IsTooLong token) ∨
      (∃ token error, IsFirst tokens token ∧ IsMalformed token ∧
        parseDocument source .cairn = .error (.error error) ∧ error.code = .invalidEscape ∧
        error.range = some (.point (positionAt source.text token.start))) ∨
      ∃ token, IsFirst tokens token ∧ IsTooLong token ∧
        parseDocument source .cairn = .error (.fault (.numberToken token.lexeme.length)) := by
  by_cases readable : ∀ token ∈ tokens, Readable token
  · have parsed := parseExpr_eq_ok_iff.mpr ⟨tokens, ran, readable⟩
    refine .inl ⟨by rw [parseDocument, parsed], fun token member => ?_⟩
    exact readable_iff_wellFormed.mp (readable token member)
  · push Not at readable
    obtain ⟨unreadable, member, isUnreadable⟩ := readable
    obtain ⟨token, fault, first⟩ := exists_firstFault member isUnreadable
    have failed := parseExpr_eq_error_iff.mpr (.inr ⟨tokens, tree, token, ran, first⟩)
    obtain ⟨written, _⟩ := derives_of_run ran
    have isFirst : IsFirst tokens token := {
      member := first.mem
      earliest := fun other isMember cannot => by
        refine first.start_lt written.ordered isMember fun canBeRead => ?_
        obtain ⟨wellFormed, short⟩ := readable_iff_wellFormed.mp canBeRead
        exact cannot.elim wellFormed short }
    obtain ⟨isFault, _⟩ := first
    rcases faultOf?_eq_some_iff.mp isFault with ⟨bad, rfl⟩ | ⟨isTooLong, rfl⟩
    · have refused : parseDocument source .cairn =
          .error ((SyntaxFault.invalidEscape token).toFailure source) := by
        rw [parseDocument, failed]
      obtain ⟨_, _, range⟩ := SyntaxFault.location_of_toFailure
        (@rfl _ ((SyntaxFault.invalidEscape token).toFailure source))
      exact .inr (.inl ⟨token, _, isFirst, hasBadEscape_iff.mp bad, refused, rfl, range⟩)
    · refine .inr (.inr ⟨token, isFirst, isTooLong, ?_⟩)
      rw [parseDocument, failed]
      rfl

/-- Strings mean what they spell, in every spelling.

A string of code points that has no low surrogate right behind a high one is what each of its
spellings parses to: between quotes it is a literal, the path of an import, the name of a field or
the name in an access; and wherever a text has such a token, some node of the tree takes the string
from it.

A text whose tokens fit the grammar is refused for an escape exactly if one of its strings is not
well formed and no integer that is too long stands in front of that string; the error is at the
start of the first string that is not well formed.  If such an integer comes first, the parser
breaks down at it. -/
theorem strings_decode (value body : Text) (source : Source) :
    (Spelling IsRaw value body → value.Unpaired →
      parseExpr (quoted body) = .ok (.string ⟨0, (quoted body).length⟩ value) ∧
      (∃ span, parseExpr ("import " ++ quoted body) = .ok (.importOf span value)) ∧
      (∃ span field inner, parseExpr ("\x7b " ++ quoted body ++ " = null \x7d") =
        .ok (.record span [(field, value, .null inner)])) ∧
      (∃ span target, parseExpr ("config . " ++ quoted body) =
        .ok (.access span (.identifier target "config") value)) ∧
      ∀ text tokens tree, Parser.run .initial [] 0 text = .ok (tokens, tree) →
        ∀ token ∈ tokens, token.terminal = .string → token.lexeme = quoted body →
          stringValue token = value ∧ ∃ node ∈ tree.nodes, Uses token node) ∧
    ∀ tokens tree, Parser.run .initial [] 0 source.text = .ok (tokens, tree) →
      Written false 0 tokens source.text ∧
      ((∃ error, parseDocument source .cairn = .error (.error error) ∧
          error.code = .invalidEscape) ↔
        ∃ token ∈ tokens, IsMalformed token ∧
          ∀ other ∈ tokens, IsTooLong other → token.start < other.start) ∧
      (∀ error, parseDocument source .cairn = .error (.error error) →
        ∃ token ∈ tokens, IsMalformed token ∧
          (∀ other ∈ tokens, IsMalformed other → token.start ≤ other.start) ∧
          error.range = some (.point (positionAt source.text token.start))) ∧
      ∀ fault, parseDocument source .cairn = .error (.fault fault) ↔
        ∃ token ∈ tokens, IsTooLong token ∧
          (∀ other ∈ tokens, IsMalformed other ∨ IsTooLong other → token.start ≤ other.start) ∧
          fault = .numberToken token.lexeme.length := by
  constructor
  · intro spelling unpaired
    refine ⟨parseExpr_quoted spelling unpaired, parseExpr_import spelling unpaired,
      parseExpr_field spelling unpaired, parseExpr_access spelling unpaired, ?_⟩
    intro text tokens tree ran token member isString lexeme
    obtain ⟨_, derivation⟩ := derives_of_run ran
    exact ⟨stringValue_quoted spelling unpaired lexeme,
      derivation.shows.strings token member isString⟩
  · intro tokens tree ran
    refine ⟨(derives_of_run ran).1, ?_⟩
    rcases parseDocument_of_run ran with ⟨read, readable⟩ |
      ⟨token, error, isFirst, isMalformed, refused, isEscape, range⟩ |
      ⟨token, isFirst, isTooLong, breaks⟩
    · simp only [read, reduceCtorEq, false_and, exists_const, false_iff]
      refine ⟨?_, nofun, fun fault => ?_⟩
      · rintro ⟨token, member, isMalformed, _⟩
        exact (readable token member).1 isMalformed
      · rintro ⟨token, member, isTooLong, _⟩
        exact (readable token member).2 isTooLong
    · rw [refused, isFirst.isMalformed_iff (.inl isMalformed)]
      refine ⟨iff_of_true ⟨error, rfl, isEscape⟩ isMalformed, ?_, fun fault => ⟨nofun, ?_⟩⟩
      · rintro _ ⟨⟩
        exact ⟨token, isFirst.member, isMalformed,
          fun other member malformed => isFirst.start_le member (.inl malformed), range⟩
      · rintro ⟨other, member, isTooLong, leads, _⟩
        cases isFirst.eq_of_start_le member (.inr isTooLong)
          (leads token isFirst.member (.inl isMalformed))
        exact absurd isMalformed (not_isMalformed_of_isTooLong isTooLong)
    · rw [breaks, isFirst.isMalformed_iff (.inr isTooLong)]
      refine ⟨iff_of_false ?_ (not_isMalformed_of_isTooLong isTooLong), ?_, fun fault => ⟨?_, ?_⟩⟩
      · rintro ⟨error, ⟨⟩, _⟩
      · rintro error ⟨⟩
      · rintro ⟨⟩
        exact ⟨token, isFirst.member, isTooLong,
          fun other member unreadable => isFirst.start_le member unreadable, rfl⟩
      · rintro ⟨other, member, otherTooLong, leads, rfl⟩
        cases isFirst.eq_of_start_le member (.inr otherTooLong)
          (leads token isFirst.member (.inr isTooLong))
        rfl

/-- A letter, a quote, a tab, a code point beyond the basic plane, and a high surrogate. -/
def mixedString : Text := ['e', '"', '\t', ⟨0x1f600, by decide⟩, ⟨0xd83d, by decide⟩]

/-- The letter stands for itself, the quote has its short escape, and the others are in digits. -/
def mixedBody : Text := "e\\\"\\u0009\\ud83d\\uDE00\\uD83d"

/-- The half of a pair is not taken together with the high surrogate that stands alone. -/
theorem strings_decode_mixed :
    parseExpr (quoted mixedBody) = .ok (.string ⟨0, 29⟩ mixedString) := by
  have isRaw : IsRaw 'e' := @isRaw_of_hexDigit? 'e' 14 (by decide)
  let pair : Text := "\\ud83d" ++ "\\uDE00"
  let pieces : List Text := ["e", "\\\"", "\\u0009", pair, "\\uD83d"]
  have spelling : Spelling IsRaw mixedString pieces.flatten := by
    refine .cons (.plain isRaw) (.cons (.short (by decide)) (.cons (.unit ?_)
      (.cons (.pair (by decide) ?_ ?_) (.cons (.unit ?_) .nil))))
    all_goals exact .intro (by decide) (by decide)
  exact ((strings_decode mixedString mixedBody ⟨"<string>", quoted mixedBody⟩).1 spelling
    (by decide)).1

/-- What follows the bracket of an array of an integer that is too long and a string with an escape
that does not exist. -/
def wordsBeforeEscape : List (Terminal × Text) :=
  [(.number, longNumber), (.comma, ","), (.string, "\"\\q\""), (.closeBracket, "]")]

/-- An array of an integer that is too long and a string with an escape that does not exist. -/
def numberBeforeEscape : Text := "[" ++ spacedText wordsBeforeEscape

/-- The integer hides the escape behind it. -/
theorem escape_not_reported :
    (∃ tokens tree, Parser.run .initial [] 0 numberBeforeEscape = .ok (tokens, tree) ∧
      ∃ token ∈ tokens, IsMalformed token) ∧
    ¬∃ error, parseDocument ⟨"<string>", numberBeforeEscape⟩ .cairn = .error (.error error) ∧
      error.code = .invalidEscape := by
  have lexemes : ∀ word ∈ (.openBracket, ("[" : Text)) :: wordsBeforeEscape,
      Lexeme word.1 word.2 := by
    have string : Lexeme .string "\"\\q\"" :=
      @StringLexeme.intro "\\q" (.escape (by decide) .nil)
    simp only [wordsBeforeEscape, List.forall_mem_cons]
    exact ⟨List.mem_singleton_self _, numberLexeme_longNumber, List.mem_singleton_self _, string,
      List.mem_singleton_self _, List.forall_mem_nil _⟩
  have derivation : Derives IsIdentifier .primary
      (⟨.openBracket, "[", 0⟩ :: spacedTokens 1 wordsBeforeEscape) _ :=
    .plain (derives_pair rfl (.whole (.plain (.number rfl))) rfl (.whole (.plain (.string rfl))) rfl)
  have ran := run_of_words lexemes derivation
  have isMalformed (offset : Nat) : IsMalformed ⟨.string, "\"\\q\"", offset⟩ :=
    hasBadEscape_iff.mp rfl
  have isFault := faultOf?_eq_some_iff.mpr (.inr ⟨isTooLong_longNumber 2, rfl⟩)
  have opening : ∀ earlier ∈ [(⟨.openBracket, "[", 0⟩ : Token)], Readable earlier := by decide
  have parsed := parseExpr_eq_error_iff.mpr (.inr ⟨_, _, _, ran, .intro isFault opening⟩)
  constructor
  · refine ⟨_, _, ran, ?_⟩
    simp only [wordsBeforeEscape, spacedTokens, List.mem_cons, exists_eq_or_imp]
    exact .inr (.inr (.inr (.inl (isMalformed _))))
  · rintro ⟨error, refused, _⟩
    rw [parseDocument, numberBeforeEscape, parsed] at refused
    cases refused

end ConfigGraph.Grammar
