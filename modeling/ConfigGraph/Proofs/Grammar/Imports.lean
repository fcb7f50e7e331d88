import ConfigGraph.Proofs.Cursor
import ConfigGraph.Proofs.Grammar.Spans

/-!
# Imports of parsed documents

The imports of a parsed tree are those of its text: every reserved word that the grammar takes for
an import starts one of them, in the same order, and each covers that word and a string literal
behind it.  Since they stand one behind the other, a single walk over the text finds all their
ranges.
-/

namespace ConfigGraph.Grammar

open ConfigGraph.Parser ConfigGraph.Expr

/-! ## Imports of rows of tokens -/

/-- The token that starts an import. -/
abbrev isImportWord (token : Token) : Bool := token.terminal = .keyword .importWord

/-- An import is written as its reserved word and a string literal, next to each other in a row of
tokens. -/
def Spelled (tokens : List Token) (site : ImportSite) : Prop :=
  ∃ importWord path : Token, [importWord, path] <:+: tokens ∧
    importWord.terminal = .keyword .importWord ∧ path.terminal = .string ∧
    site = ⟨⟨importWord.start, path.stop⟩, stringValue path⟩

theorem Spelled.mono {tokens others : List Token} (inside : tokens <:+: others) {site : ImportSite}
    (spelled : Spelled tokens site) : Spelled others site := by
  obtain ⟨importWord, path, adjacent, rest⟩ := spelled
  exact ⟨importWord, path, adjacent.trans inside, rest⟩

/-- Imports are those of a row of tokens. -/
structure WrittenIn (tokens : List Token) (sites : List ImportSite) : Prop where
  /-- Every reserved word that starts an import starts one of them, and in order. -/
  starts : (tokens.filter isImportWord).map Token.start = sites.map (·.span.start)
  spelled : ∀ site ∈ sites, Spelled tokens site

namespace WrittenIn

/-- Tokens that start no import. -/
theorem silent {tokens : List Token} (others : ∀ token ∈ tokens, isImportWord token = false) :
    WrittenIn tokens [] := by
  refine ⟨?_, List.forall_mem_nil _⟩
  rw [List.filter_eq_nil_iff.mpr fun token member => by simp [others token member]]
  rfl

theorem append {lefts rights : List Token} {before behind : List ImportSite}
    (left : WrittenIn lefts before) (right : WrittenIn rights behind) :
    WrittenIn (lefts ++ rights) (before ++ behind) := by
  constructor
  · rw [List.filter_append, List.map_append, List.map_append, left.starts, right.starts]
  · intro site member
    rcases List.mem_append.mp member with isBefore | isBehind
    · exact (left.spelled site isBefore).mono (List.prefix_append _ _).isInfix
    · exact (right.spelled site isBehind).mono (List.suffix_append _ _).isInfix

/-- A token that starts no import, in front of others. -/
theorem cons {token : Token} {tokens : List Token} {sites : List ImportSite}
    (other : isImportWord token = false) (written : WrittenIn tokens sites) :
    WrittenIn (token :: tokens) sites :=
  (silent (List.forall_mem_singleton.mpr other)).append written

/-- A token that starts no import, behind others. -/
theorem concat {token : Token} {tokens : List Token} {sites : List ImportSite}
    (written : WrittenIn tokens sites) (other : isImportWord token = false) :
    WrittenIn (tokens ++ [token]) sites := by
  have both := written.append (silent (List.forall_mem_singleton.mpr other))
  rwa [List.append_nil] at both

theorem importOf {importWord path : Token} (isWord : importWord.terminal = .keyword .importWord)
    (isString : path.terminal = .string) :
    WrittenIn [importWord, path] [⟨⟨importWord.start, path.stop⟩, stringValue path⟩] := by
  constructor
  · simp [isImportWord, isWord, isString]
  · intro site member
    cases List.mem_singleton.mp member
    exact ⟨importWord, path, List.infix_rfl, isWord, isString, rfl⟩

end WrittenIn

theorem isImportWord_of_terminal {token : Token} {terminal : Terminal}
    (isTerminal : token.terminal = terminal) (other : terminal ≠ .keyword .importWord) :
    isImportWord token = false := by
  simp [isImportWord, isTerminal, other]

theorem IsFieldName.not_importWord {token : Token} (isName : IsFieldName token) :
    isImportWord token = false := by
  rcases isName with isTerminal | isTerminal
  · exact isImportWord_of_terminal isTerminal (by decide)
  · exact isImportWord_of_terminal isTerminal (by decide)

theorem Separated.writtenIn {α : Type} {tokensOf : α → List Token} {members : List α}
    {tokens : List Token} (separated : Separated tokensOf members tokens)
    (sitesOf : α → List ImportSite)
    (each : ∀ member ∈ members, WrittenIn (tokensOf member) (sitesOf member)) :
    WrittenIn tokens (members.flatMap sitesOf) := by
  induction separated with
  | single member => simpa using each member List.mem_cons_self
  | more last _ isComma induction =>
      rw [List.flatMap_append, List.flatMap_singleton]
      have before := induction fun member isMember => each member (List.mem_append_left _ isMember)
      have behind := each last (List.mem_append_right _ List.mem_cons_self)
      exact before.append (behind.cons (isImportWord_of_terminal isComma (by decide)))

theorem Trailing.writtenIn {tokens : List Token} (trailing : Trailing tokens) :
    WrittenIn tokens [] := by
  cases trailing with
  | nothing => exact .silent (List.forall_mem_nil _)
  | comma isComma =>
      exact .silent (List.forall_mem_singleton.mpr (isImportWord_of_terminal isComma (by decide)))

/-! ## Imports of trees -/

/-- The imports of an expression that is none itself are those of its parts. -/
theorem imports_of_nodes {tree : Expr} {parts : List Node}
    (isNodes : tree.nodes = .expr tree :: parts) (noImport : (Node.expr tree).import? = none) :
    tree.imports = parts.filterMap Node.import? := by
  rw [imports, isNodes, List.filterMap_cons_none noImport]

theorem imports_items (items : List Item) :
    (itemNodes (items.map Item.expr)).filterMap Node.import? =
      items.flatMap fun item => item.expr.imports := by
  rw [itemNodes_map, List.filterMap_flatMap]
  rfl

theorem imports_fields (items : List FieldItem) :
    (fieldNodes (items.map FieldItem.field)).filterMap Node.import? =
      items.flatMap fun item => item.value.imports := by
  rw [fieldNodes_map, List.filterMap_flatMap]
  rfl

/-- The imports of a derived tree are those of its tokens. -/
theorem Derives.writtenIn {isIdentifier : Text → Prop} {category : Category} {tokens : List Token}
    {tree : Expr} (derivation : Derives isIdentifier category tokens tree) :
    WrittenIn tokens tree.imports := by
  have other {token : Token} {terminal : Terminal} (isTerminal : token.terminal = terminal)
      (differs : terminal ≠ .keyword .importWord) : isImportWord token = false :=
    isImportWord_of_terminal isTerminal differs
  induction derivation with
  | letIn isLet isName isEquals _ isIn _ value body =>
      have parts := value.append (body.cons (other isIn (by decide)))
      rw [imports_of_nodes rfl rfl, List.filterMap_append]
      exact ((parts.cons (other isEquals (by decide))).cons
        (other isName (by decide))).cons (other isLet (by decide))
  | function isFun areNames isArrow _ body =>
      have names := WrittenIn.silent fun token member => other (areNames token member) (by decide)
      exact (names.append (body.cons (other isArrow (by decide)))).cons (other isFun (by decide))
  | conditional isIf _ isThen _ isElse _ condition thenBranch elseBranch =>
      have branches := thenBranch.append (elseBranch.cons (other isElse (by decide)))
      have parts := condition.append (branches.cons (other isThen (by decide)))
      rw [imports_of_nodes rfl rfl, List.filterMap_append, List.filterMap_append,
        List.append_assoc]
      exact parts.cons (other isIf (by decide))
  | operation _ operation => exact operation
  | tighter _ _ tighter => exact tighter
  | @binary level operator _ _ _ _ isOperator _ _ left right =>
      have isOther : isImportWord operator = false := by
        refine other rfl fun isWord => ?_
        rw [isWord] at isOperator
        exact absurd (List.mem_of_getElem? isOperator) (by decide)
      rw [imports_of_nodes rfl rfl, List.filterMap_append]
      exact left.append (right.cons isOther)
  | unary isUnary _ operand =>
      exact operand.cons (other isUnary (by decide))
  | operand _ operand => exact operand
  | access _ isDot isName target =>
      have behind : WrittenIn [_, _] [] :=
        ((WrittenIn.silent (List.forall_mem_nil _)).cons isName.not_importWord).cons
          (other isDot (by decide))
      rw [imports_of_nodes rfl rfl, ← List.append_nil (List.filterMap _ _)]
      exact target.append behind
  | callEmpty _ isOpening isClosing callee =>
      have behind : WrittenIn [_, _] [] :=
        ((WrittenIn.silent (List.forall_mem_nil _)).cons (other isClosing (by decide))).cons
          (other isOpening (by decide))
      rw [imports_of_nodes rfl rfl, List.filterMap_append]
      exact callee.append behind
  | call _ isOpening separated _ isClosing callee argument =>
      have arguments := separated.writtenIn (fun item => item.expr.imports) argument
      have behind := (arguments.concat (other isClosing (by decide))).cons
        (other isOpening (by decide))
      rw [imports_of_nodes rfl rfl, List.filterMap_append, imports_items]
      exact callee.append behind
  | plain _ atom => exact atom
  | importOf isWord isString => exact .importOf isWord isString
  | recordEmpty isOpening isClosing =>
      exact ((WrittenIn.silent (List.forall_mem_nil _)).cons (other isClosing (by decide))).cons
        (other isOpening (by decide))
  | arrayEmpty isOpening isClosing =>
      exact ((WrittenIn.silent (List.forall_mem_nil _)).cons (other isClosing (by decide))).cons
        (other isOpening (by decide))
  | record isOpening separated wellFormed _ trailing isClosing value =>
      have fields := separated.writtenIn (fun item => item.value.imports)
        fun item member => ((value item member).cons
          (other (wellFormed item member).2 (by decide))).cons
            (wellFormed item member).1.not_importWord
      have behind := trailing.writtenIn.concat (other isClosing (by decide))
      rw [imports_of_nodes rfl rfl, imports_fields, ← List.append_nil (List.flatMap _ _)]
      exact (fields.append behind).cons (other isOpening (by decide))
  | array isOpening separated _ trailing isClosing item =>
      have items := separated.writtenIn (fun item => item.expr.imports) item
      have behind := trailing.writtenIn.concat (other isClosing (by decide))
      rw [imports_of_nodes rfl rfl, imports_items, ← List.append_nil (List.flatMap _ _)]
      exact (items.append behind).cons (other isOpening (by decide))
  | group isOpening _ isClosing inside =>
      exact (inside.concat (other isClosing (by decide))).cons (other isOpening (by decide))
  | number isTerminal | string isTerminal | trueWord isTerminal | falseWord isTerminal
  | nullWord isTerminal | identifier isTerminal _ =>
      exact .silent (List.forall_mem_singleton.mpr (other isTerminal (by decide)))

/-! ## Imports in texts -/

/-- Two neighbours in a text, with a gap between them. -/
theorem Written.neighbours {spaced : Bool} {offset : Nat} {tokens : List Token} {text : Text}
    (written : Written spaced offset tokens text) {first second : Token}
    (adjacent : [first, second] <:+: tokens) :
    ∃ before gap behind, text = before ++ (first.lexeme ++ (gap ++ (second.lexeme ++ behind))) ∧
      Gap gap ∧ first.start = offset + before.length ∧
      second.stop = first.start + (first.lexeme ++ (gap ++ second.lexeme)).length := by
  obtain ⟨earlier, later, split⟩ := adjacent
  induction earlier generalizing offset tokens text with
  | nil =>
      subst split
      obtain _ | ⟨isGap, _, start, _, rest⟩ := written
      obtain _ | ⟨isInner, _, next, _, _⟩ := rest
      refine ⟨_, _, _, rfl, isInner, start, ?_⟩
      simp only [Token.stop, next, List.length_append]
      omega
  | cons token earlier induction =>
      subst split
      obtain _ | @⟨_, outer, _, _, _, _, _, start, _, rest⟩ := written
      obtain ⟨before, gap, behind, rfl, isGap, isStart, isStop⟩ := induction rest rfl
      refine ⟨outer ++ (token.lexeme ++ before), gap, behind, ?_, isGap, ?_, isStop⟩
      · simp only [List.append_assoc]
      · rw [isStart]
        simp only [Token.stop, start, List.length_append]
        omega

/-- An import of a tree covers its reserved word, a gap, and the literal of its path. -/
theorem Spelled.textIn {spaced : Bool} {tokens : List Token} {text : Text} {site : ImportSite}
    (spelled : Spelled tokens site) (written : Written spaced 0 tokens text)
    (readable : ∀ token ∈ tokens, Readable token) :
    ∃ gap literal, Gap gap ∧ StringLexeme literal ∧
      Json.stringLiteral? literal = some site.path ∧
      site.span.textIn text = Keyword.importWord.spelling ++ (gap ++ literal) := by
  obtain ⟨importWord, path, adjacent, isWord, isString, rfl⟩ := spelled
  obtain ⟨before, gap, behind, rfl, isGap, start, stop⟩ := written.neighbours adjacent
  have genuineWord := written.genuine importWord (adjacent.subset List.mem_cons_self)
  have isPath : path ∈ tokens := adjacent.subset (List.mem_cons_of_mem _ List.mem_cons_self)
  have genuinePath := written.genuine path isPath
  obtain ⟨escape, _⟩ := readable_iff.mp (readable path isPath)
  unfold Genuine at genuineWord genuinePath
  rw [isWord] at genuineWord
  rw [isString] at genuinePath
  refine ⟨gap, path.lexeme, isGap, genuinePath, ?_, ?_⟩
  · unfold hasBadEscape at escape
    unfold stringValue
    cases decoded : Json.stringLiteral? path.lexeme with
    | some value => rfl
    | none => simp [isString, decoded] at escape
  · rw [← List.mem_singleton.mp genuineWord]
    rw [Nat.zero_add] at start
    have covered : importWord.lexeme ++ (gap ++ (path.lexeme ++ behind)) =
        (importWord.lexeme ++ (gap ++ path.lexeme)) ++ behind := by
      simp only [List.append_assoc]
    rw [Span.textIn, stop, Nat.add_sub_cancel_left, start, List.drop_left, covered, List.take_left]

/-- The imports of a text that parses, in the order in which they are listed.

They stand one behind the other and are not empty.  So one cursor that walks over all of them finds
for each what a fresh one finds for it alone, and makes no misstep.  Each covers the reserved word,
a gap, and a string literal that means its path.  The reserved words that start imports in the
tokens of the text are those of the listed ones, each of one; and the listed imports are those that
stand anywhere in the tree. -/
theorem imports_of_parseExpr {text : Text} {tree : Expr} (parsed : parseExpr text = .ok tree) :
    (tree.imports.Pairwise fun before behind => before.span.stop ≤ behind.span.start) ∧
    (∀ site ∈ tree.imports, site.span.start < site.span.stop ∧ site.span.stop ≤ text.length) ∧
    (Cursor.ofText text).ranges (tree.imports.map (·.span)) =
      tree.imports.map (fun site => rangeOfSpan? text (some site.span)) ∧
    (∀ site ∈ tree.imports, rangeOfSpan? text (some site.span) = .ok (site.span.rangeIn text)) ∧
    (∀ site ∈ tree.imports, ∃ gap literal, Gap gap ∧ StringLexeme literal ∧
      Json.stringLiteral? literal = some site.path ∧
      site.span.textIn text = Keyword.importWord.spelling ++ (gap ++ literal)) ∧
    (∃ tokens, Written false 0 tokens text ∧ Derives AnyName .expr tokens tree ∧
      (tokens.filter isImportWord).map Token.start = tree.imports.map (·.span.start)) ∧
    ∀ span path, ⟨span, path⟩ ∈ tree.imports ↔ (Expr.importOf span path).Within tree := by
  obtain ⟨tokens, written, readable, derivation⟩ := derives_of_parseExpr parsed
  have placed := placed_of_parseExpr parsed
  have writtenIn := derivation.writtenIn
  have inside : ∀ site ∈ tree.imports,
      site.span.start < site.span.stop ∧ site.span.stop ≤ text.length := by
    intro site member
    obtain ⟨node, isNode, found⟩ := List.mem_filterMap.mp member
    rw [Placed.span_of_import? found]
    exact (placed.inside node isNode).2
  have ranges : ∀ site ∈ tree.imports,
      rangeOfSpan? text (some site.span) = .ok (site.span.rangeIn text) := by
    intro site member
    obtain ⟨nonempty, stop⟩ := inside site member
    exact rangeOfSpan?_of_inside ⟨Nat.le_of_lt nonempty, stop⟩
  refine ⟨placed.imports, inside, ?_, ranges, ?_, ⟨tokens, written, derivation, writtenIn.starts⟩,
    fun span path => mem_imports_iff⟩
  · rw [List.map_congr_left ranges, Cursor.ofText_eq_reaching, Cursor.ranges_reaching,
      List.map_map]
    · rfl
    · intro span member
      obtain ⟨site, isSite, rfl⟩ := List.mem_map.mp member
      obtain ⟨nonempty, stop⟩ := inside site isSite
      exact ⟨Nat.le_of_lt nonempty, stop⟩
    · exact List.pairwise_map.mpr placed.imports
    · exact fun _ _ => Nat.zero_le _
  · intro site member
    exact (writtenIn.spelled site member).textIn written readable

/-- Two imports, of which one stands in parentheses and has a comment inside. -/
def twoImports : Text := "[import\"a\", (import # b\n\"b\").c]"

theorem imports_of_parseExpr_twoImports :
    ∃ tree, parseExpr twoImports = .ok tree ∧
      tree.imports = [⟨⟨1, 10⟩, "a"⟩, ⟨⟨13, 27⟩, "b"⟩] ∧
      (Cursor.ofText twoImports).ranges [⟨1, 10⟩, ⟨13, 27⟩] =
        [.ok ⟨⟨0, 1⟩, ⟨0, 10⟩⟩, .ok ⟨⟨0, 13⟩, ⟨1, 3⟩⟩] := by
  have listed : (parseExpr twoImports).toOption.map imports =
      some [⟨⟨1, 10⟩, "a"⟩, ⟨⟨13, 27⟩, "b"⟩] := by
    decide +kernel
  cases parsed : parseExpr twoImports with
  | error fault =>
      rw [parsed] at listed
      cases listed
  | ok tree =>
      rw [parsed] at listed
      have sites := Option.some.inj listed
      have walk := (imports_of_parseExpr parsed).2.2.1
      have single := (imports_of_parseExpr parsed).2.2.2.1
      rw [List.map_congr_left single, sites] at walk
      exact ⟨tree, rfl, sites, walk⟩

end ConfigGraph.Grammar
