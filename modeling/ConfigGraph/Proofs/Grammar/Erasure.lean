import ConfigGraph.Proofs.Grammar.Derivation
import Mathlib.Data.List.Forall2

/-!
# Derivations do not depend on places

The words of a row of tokens are their terminals and code points, without the places at which they
stand.  Whatever a row of tokens derives, any other row with the same words derives too, with a tree
that differs in its spans only.
-/

namespace ConfigGraph

mutual

/-- An expression with its spans forgotten. -/
def Expr.erase : Expr → Expr
  | .number _ value => .number default value
  | .string _ value => .string default value
  | .boolean _ value => .boolean default value
  | .null _ => .null default
  | .identifier _ name => .identifier default name
  | .record _ fields => .record default (Expr.eraseFields fields)
  | .array _ items => .array default (Expr.eraseItems items)
  | .importOf _ path => .importOf default path
  | .letIn _ name value body => .letIn default name value.erase body.erase
  | .function _ parameters body => .function default parameters body.erase
  | .conditional _ condition thenBranch elseBranch =>
      .conditional default condition.erase thenBranch.erase elseBranch.erase
  | .binary _ operator left right => .binary default operator left.erase right.erase
  | .unary _ operator operand => .unary default operator operand.erase
  | .access _ target field => .access default target.erase field
  | .call _ callee arguments => .call default callee.erase (Expr.eraseItems arguments)

/-- Expressions with their spans forgotten. -/
def Expr.eraseItems : List Expr → List Expr
  | [] => []
  | item :: items => item.erase :: Expr.eraseItems items

/-- Fields with their spans forgotten. -/
def Expr.eraseFields : List (Span × Text × Expr) → List (Span × Text × Expr)
  | [] => []
  | (_, name, value) :: fields => (default, name, value.erase) :: Expr.eraseFields fields

end

/-- A token without its place. -/
def Token.word (token : Token) : Terminal × Text := (token.terminal, token.lexeme)

/-- Two rows of tokens that may differ in places only. -/
def SameWords (tokens others : List Token) : Prop := tokens.map Token.word = others.map Token.word

namespace SameWords

theorem refl (tokens : List Token) : SameWords tokens tokens := rfl

theorem symm {tokens others : List Token} (same : SameWords tokens others) :
    SameWords others tokens :=
  Eq.symm same

theorem of_nil {others : List Token} (same : SameWords [] others) : others = [] :=
  List.map_eq_nil_iff.mp (Eq.symm same)

theorem of_cons {token : Token} {tokens others : List Token}
    (same : SameWords (token :: tokens) others) :
    ∃ other rest, others = other :: rest ∧ token.terminal = other.terminal ∧
      token.lexeme = other.lexeme ∧ SameWords tokens rest := by
  obtain ⟨other, rest, rfl, word, words⟩ := List.map_eq_cons_iff.mp (Eq.symm same)
  exact ⟨other, rest, rfl, (congrArg Prod.fst word).symm, (congrArg Prod.snd word).symm, words.symm⟩

theorem of_append {lefts rights others : List Token} (same : SameWords (lefts ++ rights) others) :
    ∃ otherLefts otherRights, others = otherLefts ++ otherRights ∧ SameWords lefts otherLefts ∧
      SameWords rights otherRights := by
  have split : others.map Token.word = lefts.map Token.word ++ rights.map Token.word := by
    rw [← List.map_append]
    exact Eq.symm same
  obtain ⟨otherLefts, otherRights, rfl, left, right⟩ := List.map_eq_append_iff.mp split
  exact ⟨otherLefts, otherRights, rfl, left.symm, right.symm⟩

theorem of_singleton {token : Token} {others : List Token} (same : SameWords [token] others) :
    ∃ other, others = [other] ∧ token.terminal = other.terminal ∧ token.lexeme = other.lexeme := by
  obtain ⟨other, rest, rfl, terminal, lexeme, sameRest⟩ := of_cons same
  cases of_nil sameRest
  exact ⟨other, rfl, terminal, lexeme⟩

theorem of_pair {first second : Token} {others : List Token}
    (same : SameWords [first, second] others) :
    ∃ other another, others = [other, another] ∧ first.terminal = other.terminal ∧
      first.lexeme = other.lexeme ∧ second.terminal = another.terminal ∧
      second.lexeme = another.lexeme := by
  obtain ⟨other, rest, rfl, terminal, lexeme, sameRest⟩ := of_cons same
  obtain ⟨another, rfl, terminal₂, lexeme₂⟩ := of_singleton sameRest
  exact ⟨other, another, rfl, terminal, lexeme, terminal₂, lexeme₂⟩

theorem lexemes {tokens others : List Token} (same : SameWords tokens others) :
    tokens.map Token.lexeme = others.map Token.lexeme := by
  have seconds := congrArg (List.map Prod.snd) same
  rw [List.map_map, List.map_map] at seconds
  exact seconds

/-- What holds of the words of all tokens of a row holds for any row with the same words. -/
theorem forall_mem {tokens others : List Token} (same : SameWords tokens others)
    (good : Terminal × Text → Prop) (all : ∀ token ∈ tokens, good token.word) :
    ∀ other ∈ others, good other.word := by
  intro other member
  have word : other.word ∈ tokens.map Token.word := by
    rw [same]
    exact List.mem_map_of_mem member
  obtain ⟨token, origin, equal⟩ := List.mem_map.mp word
  rw [← equal]
  exact all token origin

end SameWords

namespace Grammar

open ConfigGraph.Parser

theorem IsFieldName.of_sameTerminal {token other : Token}
    (terminal : token.terminal = other.terminal) (name : IsFieldName token) :
    IsFieldName other := by
  unfold IsFieldName at name ⊢
  rw [← terminal]
  exact name

theorem fieldNameOf_congr {token other : Token} (terminal : token.terminal = other.terminal)
    (lexeme : token.lexeme = other.lexeme) : fieldNameOf token = fieldNameOf other := by
  unfold fieldNameOf stringValue
  rw [terminal, lexeme]

theorem Trailing.of_sameWords {tokens others : List Token} (same : SameWords tokens others)
    (trailing : Trailing tokens) : Trailing others := by
  cases trailing with
  | nothing =>
      rw [same.of_nil]
      exact .nothing
  | comma isComma =>
      obtain ⟨other, rfl, terminal, _⟩ := same.of_singleton
      exact .comma (terminal ▸ isComma)

/-- Members of a list that are replaced one by one leave a list with the same commas. -/
theorem Separated.of_sameWords {α : Type} {tokensOf : α → List Token} {members : List α}
    {tokens others : List Token} (related : α → α → Prop) (good : α → Prop)
    (separated : Separated tokensOf members tokens) (same : SameWords tokens others)
    (replace : ∀ member ∈ members, ∀ {tokens}, SameWords (tokensOf member) tokens →
      ∃ other, tokensOf other = tokens ∧ good other ∧ related other member) :
    ∃ newMembers, Separated tokensOf newMembers others ∧ (∀ member ∈ newMembers, good member) ∧
      List.Forall₂ related newMembers members := by
  induction separated generalizing others with
  | single member =>
      obtain ⟨other, rfl, isGood, relation⟩ := replace member List.mem_cons_self same
      exact ⟨[other], .single other, by simpa using isGood, .cons relation .nil⟩
  | more last _ isComma induction =>
      obtain ⟨otherTokens, rest, rfl, sameTokens, same⟩ := same.of_append
      obtain ⟨comma, lasts, rfl, commaTerminal, _, sameLasts⟩ := same.of_cons
      obtain ⟨newMembers, newSeparated, areGood, relations⟩ := induction sameTokens
        fun member earlier => replace member (List.mem_append_left _ earlier)
      obtain ⟨other, rfl, isGood, relation⟩ := replace last (by simp) sameLasts
      refine ⟨newMembers ++ [other], .more other newSeparated (commaTerminal ▸ isComma), ?_,
        List.rel_append relations (.cons relation .nil)⟩
      intro member place
      rcases List.mem_append.mp place with earlier | isLast
      · exact areGood member earlier
      · rw [List.mem_singleton.mp isLast]
        exact isGood

theorem eraseItems_of_forall₂ {items others : List Item}
    (relations : List.Forall₂ (fun other item => other.expr.erase = item.expr.erase) others items) :
    Expr.eraseItems (others.map Item.expr) = Expr.eraseItems (items.map Item.expr) := by
  induction relations with
  | nil => rfl
  | cons erased _ induction => simp only [List.map_cons, Expr.eraseItems, erased, induction]

theorem eraseFields_of_forall₂ {fields others : List FieldItem}
    (relations : List.Forall₂ (fun other field =>
      fieldNameOf other.name = fieldNameOf field.name ∧ other.value.erase = field.value.erase)
      others fields) :
    Expr.eraseFields (others.map FieldItem.field) =
      Expr.eraseFields (fields.map FieldItem.field) := by
  induction relations with
  | nil => rfl
  | cons erased _ induction =>
      simp only [List.map_cons, FieldItem.field, Expr.eraseFields, erased.1, erased.2, induction]

variable {isIdentifier : Text → Prop}

private theorem items_of_sameWords {items : List Item} {tokens others : List Token}
    (separated : Separated Item.tokens items tokens) (same : SameWords tokens others)
    (replace : ∀ item ∈ items, ∀ {tokens}, SameWords item.tokens tokens →
      ∃ other, Derives isIdentifier .expr tokens other ∧ other.erase = item.expr.erase) :
    ∃ newItems, Separated Item.tokens newItems others ∧
      (∀ item ∈ newItems, Derives isIdentifier .expr item.tokens item.expr) ∧
      Expr.eraseItems (newItems.map Item.expr) = Expr.eraseItems (items.map Item.expr) := by
  obtain ⟨newItems, newSeparated, derived, relations⟩ := separated.of_sameWords
    (fun other item => other.expr.erase = item.expr.erase)
    (fun other => Derives isIdentifier .expr other.tokens other.expr) same
    (fun item member tokens sameTokens => by
      obtain ⟨other, derivation, erased⟩ := replace item member sameTokens
      exact ⟨⟨tokens, other⟩, rfl, derivation, erased⟩)
  exact ⟨newItems, newSeparated, derived, eraseItems_of_forall₂ relations⟩

private theorem fields_of_sameWords {fields : List FieldItem} {tokens others : List Token}
    (separated : Separated FieldItem.tokens fields tokens) (same : SameWords tokens others)
    (wellFormed : ∀ field ∈ fields, field.WellFormed)
    (replace : ∀ field ∈ fields, ∀ {tokens}, SameWords field.values tokens →
      ∃ other, Derives isIdentifier .expr tokens other ∧ other.erase = field.value.erase) :
    ∃ newFields, Separated FieldItem.tokens newFields others ∧
      (∀ field ∈ newFields, field.WellFormed ∧
        Derives isIdentifier .expr field.values field.value) ∧
      Expr.eraseFields (newFields.map FieldItem.field) =
        Expr.eraseFields (fields.map FieldItem.field) := by
  obtain ⟨newFields, newSeparated, derived, relations⟩ := separated.of_sameWords
    (fun other field =>
      fieldNameOf other.name = fieldNameOf field.name ∧ other.value.erase = field.value.erase)
    (fun other => other.WellFormed ∧ Derives isIdentifier .expr other.values other.value) same
    (fun field member tokens sameTokens => by
      obtain ⟨name, rest, rfl, nameTerminal, nameLexeme, sameRest⟩ := sameTokens.of_cons
      obtain ⟨equals, values, rfl, equalsTerminal, _, sameValues⟩ := sameRest.of_cons
      obtain ⟨other, derivation, erased⟩ := replace field member sameValues
      obtain ⟨isName, isEquals⟩ := wellFormed field member
      exact ⟨⟨name, equals, values, other⟩, rfl,
        ⟨⟨isName.of_sameTerminal nameTerminal, equalsTerminal ▸ isEquals⟩, derivation⟩,
        (fieldNameOf_congr nameTerminal nameLexeme).symm, erased⟩)
  exact ⟨newFields, newSeparated, derived, eraseFields_of_forall₂ relations⟩

/-- Whatever a row of tokens derives, any row with the same words derives, up to spans. -/
theorem Derives.of_sameWords {category : Category} {tokens others : List Token} {expr : Expr}
    (derivation : Derives isIdentifier category tokens expr) (same : SameWords tokens others) :
    ∃ other, Derives isIdentifier category others other ∧ other.erase = expr.erase := by
  induction derivation generalizing others with
  | letIn isLet isName isEquals _ isIn _ values bodies =>
      obtain ⟨letWord, rest, rfl, letTerminal, _, same⟩ := same.of_cons
      obtain ⟨name, rest, rfl, nameTerminal, nameLexeme, same⟩ := same.of_cons
      obtain ⟨equals, rest, rfl, equalsTerminal, _, same⟩ := same.of_cons
      obtain ⟨otherValues, rest, rfl, sameValues, same⟩ := same.of_append
      obtain ⟨inWord, otherBodies, rfl, inTerminal, _, sameBodies⟩ := same.of_cons
      obtain ⟨value, newValues, valueErased⟩ := values sameValues
      obtain ⟨body, newBodies, bodyErased⟩ := bodies sameBodies
      refine ⟨_, .letIn (letTerminal ▸ isLet) (nameTerminal ▸ isName) (equalsTerminal ▸ isEquals)
        newValues (inTerminal ▸ isIn) newBodies, ?_⟩
      simp only [Expr.erase, valueErased, bodyErased, nameLexeme]
  | function isFun areNames isArrow _ bodies =>
      obtain ⟨funWord, rest, rfl, funTerminal, _, same⟩ := same.of_cons
      obtain ⟨parameters, rest, rfl, sameParameters, same⟩ := same.of_append
      obtain ⟨arrow, otherBodies, rfl, arrowTerminal, _, sameBodies⟩ := same.of_cons
      obtain ⟨body, newBodies, bodyErased⟩ := bodies sameBodies
      have names : ∀ parameter ∈ parameters, parameter.terminal = .name :=
        sameParameters.forall_mem (fun word => word.1 = .name) areNames
      refine ⟨_, .function (funTerminal ▸ isFun) names (arrowTerminal ▸ isArrow) newBodies, ?_⟩
      simp only [Expr.erase, bodyErased, sameParameters.lexemes]
  | conditional isIf _ isThen _ isElse _ conditions thens elses =>
      obtain ⟨ifWord, rest, rfl, ifTerminal, _, same⟩ := same.of_cons
      obtain ⟨otherConditions, rest, rfl, sameConditions, same⟩ := same.of_append
      obtain ⟨thenWord, rest, rfl, thenTerminal, _, same⟩ := same.of_cons
      obtain ⟨otherThens, rest, rfl, sameThens, same⟩ := same.of_append
      obtain ⟨elseWord, otherElses, rfl, elseTerminal, _, sameElses⟩ := same.of_cons
      obtain ⟨condition, newConditions, conditionErased⟩ := conditions sameConditions
      obtain ⟨thenBranch, newThens, thenErased⟩ := thens sameThens
      obtain ⟨elseBranch, newElses, elseErased⟩ := elses sameElses
      refine ⟨_, .conditional (ifTerminal ▸ isIf) newConditions (thenTerminal ▸ isThen) newThens
        (elseTerminal ▸ isElse) newElses, ?_⟩
      simp only [Expr.erase, conditionErased, thenErased, elseErased]
  | operation _ tokens =>
      obtain ⟨other, newTokens, erased⟩ := tokens same
      exact ⟨other, .operation newTokens, erased⟩
  | tighter bound _ tokens =>
      obtain ⟨other, newTokens, erased⟩ := tokens same
      exact ⟨other, .tighter bound newTokens, erased⟩
  | binary isOperator _ _ lefts rights =>
      obtain ⟨otherLefts, rest, rfl, sameLefts, same⟩ := same.of_append
      obtain ⟨operator, otherRights, rfl, terminal, lexeme, sameRights⟩ := same.of_cons
      obtain ⟨left, newLefts, leftErased⟩ := lefts sameLefts
      obtain ⟨right, newRights, rightErased⟩ := rights sameRights
      refine ⟨_, .binary (terminal ▸ isOperator) newLefts newRights, ?_⟩
      simp only [Expr.erase, leftErased, rightErased, lexeme]
  | unary isUnary _ operands =>
      obtain ⟨operator, otherOperands, rfl, terminal, lexeme, sameOperands⟩ := same.of_cons
      obtain ⟨operand, newOperands, operandErased⟩ := operands sameOperands
      refine ⟨_, .unary (terminal ▸ isUnary) newOperands, ?_⟩
      simp only [Expr.erase, operandErased, lexeme]
  | operand _ tokens =>
      obtain ⟨other, newTokens, erased⟩ := tokens same
      exact ⟨other, .operand newTokens, erased⟩
  | access _ isDot isName targets =>
      obtain ⟨otherTargets, rest, rfl, sameTargets, same⟩ := same.of_append
      obtain ⟨dot, name, rfl, dotTerminal, _, nameTerminal, nameLexeme⟩ := same.of_pair
      obtain ⟨target, newTargets, targetErased⟩ := targets sameTargets
      refine ⟨_, .access newTargets (dotTerminal ▸ isDot) (isName.of_sameTerminal nameTerminal), ?_⟩
      simp only [Expr.erase, targetErased, fieldNameOf_congr nameTerminal nameLexeme]
  | callEmpty _ isOpening isClosing callees =>
      obtain ⟨otherCallees, rest, rfl, sameCallees, same⟩ := same.of_append
      obtain ⟨opening, closing, rfl, openingTerminal, _, closingTerminal, _⟩ := same.of_pair
      obtain ⟨callee, newCallees, calleeErased⟩ := callees sameCallees
      refine ⟨_, .callEmpty newCallees (openingTerminal ▸ isOpening)
        (closingTerminal ▸ isClosing), ?_⟩
      simp only [Expr.erase, calleeErased]
  | call _ isOpening separated _ isClosing callees arguments =>
      obtain ⟨otherCallees, rest, rfl, sameCallees, same⟩ := same.of_append
      obtain ⟨opening, rest, rfl, openingTerminal, _, same⟩ := same.of_cons
      obtain ⟨otherTokens, rest, rfl, sameTokens, same⟩ := same.of_append
      obtain ⟨closing, rfl, closingTerminal, _⟩ := same.of_singleton
      obtain ⟨callee, newCallees, calleeErased⟩ := callees sameCallees
      obtain ⟨newArguments, newSeparated, derived, argumentsErased⟩ :=
        items_of_sameWords separated sameTokens arguments
      refine ⟨_, .call newCallees (openingTerminal ▸ isOpening) newSeparated derived
        (closingTerminal ▸ isClosing), ?_⟩
      simp only [Expr.erase, calleeErased, argumentsErased]
  | plain _ tokens =>
      obtain ⟨other, newTokens, erased⟩ := tokens same
      exact ⟨other, .plain newTokens, erased⟩
  | number isNumber =>
      obtain ⟨other, rfl, terminal, lexeme⟩ := same.of_singleton
      refine ⟨_, .number (terminal ▸ isNumber), ?_⟩
      simp only [Expr.erase, numberValue, lexeme]
  | string isString =>
      obtain ⟨other, rfl, terminal, lexeme⟩ := same.of_singleton
      refine ⟨_, .string (terminal ▸ isString), ?_⟩
      simp only [Expr.erase, stringValue, lexeme]
  | trueWord isWord =>
      obtain ⟨other, rfl, terminal, _⟩ := same.of_singleton
      exact ⟨_, .trueWord (terminal ▸ isWord), rfl⟩
  | falseWord isWord =>
      obtain ⟨other, rfl, terminal, _⟩ := same.of_singleton
      exact ⟨_, .falseWord (terminal ▸ isWord), rfl⟩
  | nullWord isWord =>
      obtain ⟨other, rfl, terminal, _⟩ := same.of_singleton
      exact ⟨_, .nullWord (terminal ▸ isWord), rfl⟩
  | identifier isName isFree =>
      obtain ⟨other, rfl, terminal, lexeme⟩ := same.of_singleton
      refine ⟨_, .identifier (terminal ▸ isName) (lexeme ▸ isFree), ?_⟩
      simp only [Expr.erase, lexeme]
  | importOf isImport isString =>
      obtain ⟨importWord, path, rfl, importTerminal, _, pathTerminal, lexeme⟩ := same.of_pair
      refine ⟨_, .importOf (importTerminal ▸ isImport) (pathTerminal ▸ isString), ?_⟩
      simp only [Expr.erase, stringValue, lexeme]
  | recordEmpty isOpening isClosing =>
      obtain ⟨opening, closing, rfl, openingTerminal, _, closingTerminal, _⟩ := same.of_pair
      exact ⟨_, .recordEmpty (openingTerminal ▸ isOpening) (closingTerminal ▸ isClosing), rfl⟩
  | record isOpening separated wellFormed _ trailing isClosing fields =>
      obtain ⟨opening, rest, rfl, openingTerminal, _, same⟩ := same.of_cons
      obtain ⟨otherTokens, rest, rfl, sameTokens, same⟩ := same.of_append
      obtain ⟨otherTrailing, rest, rfl, sameTrailing, same⟩ := same.of_append
      obtain ⟨closing, rfl, closingTerminal, _⟩ := same.of_singleton
      obtain ⟨newFields, newSeparated, derived, fieldsErased⟩ :=
        fields_of_sameWords separated sameTokens wellFormed fields
      refine ⟨_, .record (openingTerminal ▸ isOpening) newSeparated
        (fun field member => (derived field member).1)
        (fun field member => (derived field member).2)
        (trailing.of_sameWords sameTrailing) (closingTerminal ▸ isClosing), ?_⟩
      simp only [Expr.erase, fieldsErased]
  | arrayEmpty isOpening isClosing =>
      obtain ⟨opening, closing, rfl, openingTerminal, _, closingTerminal, _⟩ := same.of_pair
      exact ⟨_, .arrayEmpty (openingTerminal ▸ isOpening) (closingTerminal ▸ isClosing), rfl⟩
  | array isOpening separated _ trailing isClosing items =>
      obtain ⟨opening, rest, rfl, openingTerminal, _, same⟩ := same.of_cons
      obtain ⟨otherTokens, rest, rfl, sameTokens, same⟩ := same.of_append
      obtain ⟨otherTrailing, rest, rfl, sameTrailing, same⟩ := same.of_append
      obtain ⟨closing, rfl, closingTerminal, _⟩ := same.of_singleton
      obtain ⟨newItems, newSeparated, derived, itemsErased⟩ :=
        items_of_sameWords separated sameTokens items
      refine ⟨_, .array (openingTerminal ▸ isOpening) newSeparated derived
        (trailing.of_sameWords sameTrailing) (closingTerminal ▸ isClosing), ?_⟩
      simp only [Expr.erase, itemsErased]
  | group isOpening _ isClosing tokens =>
      obtain ⟨opening, rest, rfl, openingTerminal, _, same⟩ := same.of_cons
      obtain ⟨otherTokens, rest, rfl, sameTokens, same⟩ := same.of_append
      obtain ⟨closing, rfl, closingTerminal, _⟩ := same.of_singleton
      obtain ⟨other, newTokens, erased⟩ := tokens sameTokens
      exact ⟨other, .group (openingTerminal ▸ isOpening) newTokens
        (closingTerminal ▸ isClosing), erased⟩

end Grammar

end ConfigGraph
