import ConfigGraph.Proofs.Grammar.Lexeme

/-!
# The grammar of expressions

`Derives` is the grammar as a relation between a category, a row of tokens, and the tree that the
row stands for.  Operators between two operands come in six levels, the loosest first; operators
before an operand follow as the seventh.  A tree has the span from the first to the last of its
tokens that belong to a node, so that parentheses around an expression leave no trace.

Two rows that differ in the places of their tokens only have the same trees but for the spans;
`Expr.erase` forgets these.
-/

namespace ConfigGraph.Grammar

open ConfigGraph.Parser

/-- The roles in which the grammar knows expressions. -/
inductive Category where
  /-- Any expression. -/
  | expr
  /-- An expression without an operator looser than those of a level. -/
  | level (level : Nat)
  /-- An operand with accesses to fields and calls behind it. -/
  | primary
  | atom

/-- The terminals of the operators of each level, the loosest first. -/
def operatorTerminals : List Terminal :=
  [.merge, .disjunction, .conjunction, .comparison, .sum, .product]

/-- The level of the operators before an operand, which is tighter than those of all others. -/
abbrev unaryLevel : Nat := 6

/-- The level of comparisons. -/
abbrev comparisonLevel : Nat := 3

/-- The category of the left operand at a level: operators of the same level group to the left, but
comparisons do not chain. -/
def leftLevel (level : Nat) : Nat := if level = comparisonLevel then level + 1 else level

/-- What may stand behind the last member of a list: nothing, or a comma. -/
inductive Trailing : List Token → Prop where
  | nothing : Trailing []
  | comma {comma : Token} : comma.terminal = .comma → Trailing [comma]

/-- At least one member, with commas between them. -/
inductive Separated {α : Type} (tokensOf : α → List Token) : List α → List Token → Prop where
  | single (member : α) : Separated tokensOf [member] (tokensOf member)
  | more {comma : Token} {members : List α} {tokens : List Token} (last : α) :
      Separated tokensOf members tokens →
      comma.terminal = .comma →
      Separated tokensOf (members ++ [last]) (tokens ++ comma :: tokensOf last)

theorem Separated.ne_nil {α : Type} {tokensOf : α → List Token} {members : List α}
    {tokens : List Token} (separated : Separated tokensOf members tokens) : members ≠ [] := by
  cases separated with
  | single _ => exact List.cons_ne_nil _ _
  | more last _ _ => exact List.append_ne_nil_of_right_ne_nil _ (List.cons_ne_nil _ _)

theorem Separated.mem_of_mem {α : Type} {tokensOf : α → List Token} {members : List α}
    {tokens : List Token} (separated : Separated tokensOf members tokens) {member : α}
    (isMember : member ∈ members) {token : Token} (isToken : token ∈ tokensOf member) :
    token ∈ tokens := by
  induction separated with
  | single only =>
      cases List.mem_singleton.mp isMember
      exact isToken
  | more last _ _ induction =>
      rcases List.mem_append.mp isMember with before | isLast
      · exact List.mem_append_left _ (induction before)
      · cases List.mem_singleton.mp isLast
        exact List.mem_append_right _ (List.mem_cons_of_mem _ isToken)

/-- Tokens that name a field. -/
def IsFieldName (token : Token) : Prop := token.terminal = .name ∨ token.terminal = .string

/-- An argument or an item of an array, and the tokens that it is made of. -/
structure Item where
  tokens : List Token
  expr : Expr

/-- A field of a record, and the tokens that it is made of. -/
structure FieldItem where
  name : Token
  equals : Token
  values : List Token
  value : Expr

namespace FieldItem

def tokens (item : FieldItem) : List Token := item.name :: item.equals :: item.values

/-- A field has the span from its name to its value. -/
def field (item : FieldItem) : Field :=
  (⟨item.name.start, item.value.span.stop⟩, fieldNameOf item.name, item.value)

/-- The name and the equals sign of a field are such tokens. -/
def WellFormed (item : FieldItem) : Prop :=
  IsFieldName item.name ∧ item.equals.terminal = .equals

end FieldItem

/-- The grammar of expressions, with the words that can be identifiers as a parameter. -/
inductive Derives (isIdentifier : Text → Prop) : Category → List Token → Expr → Prop where
  | letIn {letWord name equals inWord : Token} {values bodies : List Token} {value body : Expr} :
      letWord.terminal = .keyword .letWord →
      name.terminal = .name →
      equals.terminal = .equals →
      Derives isIdentifier .expr values value →
      inWord.terminal = .keyword .inWord →
      Derives isIdentifier .expr bodies body →
      Derives isIdentifier .expr (letWord :: name :: equals :: (values ++ inWord :: bodies))
        (.letIn ⟨letWord.start, body.span.stop⟩ name.lexeme value body)
  | function {funWord arrow : Token} {parameters bodies : List Token} {body : Expr} :
      funWord.terminal = .keyword .funWord →
      (∀ parameter ∈ parameters, parameter.terminal = .name) →
      arrow.terminal = .arrow →
      Derives isIdentifier .expr bodies body →
      Derives isIdentifier .expr (funWord :: (parameters ++ arrow :: bodies))
        (.function ⟨funWord.start, body.span.stop⟩ (parameters.map Token.lexeme) body)
  | conditional {ifWord thenWord elseWord : Token} {conditions thens elses : List Token}
      {condition thenBranch elseBranch : Expr} :
      ifWord.terminal = .keyword .ifWord →
      Derives isIdentifier .expr conditions condition →
      thenWord.terminal = .keyword .thenWord →
      Derives isIdentifier .expr thens thenBranch →
      elseWord.terminal = .keyword .elseWord →
      Derives isIdentifier .expr elses elseBranch →
      Derives isIdentifier .expr
        (ifWord :: (conditions ++ thenWord :: (thens ++ elseWord :: elses)))
        (.conditional ⟨ifWord.start, elseBranch.span.stop⟩ condition thenBranch elseBranch)
  | operation {tokens : List Token} {expr : Expr} :
      Derives isIdentifier (.level 0) tokens expr →
      Derives isIdentifier .expr tokens expr
  | tighter {level : Nat} {tokens : List Token} {expr : Expr} :
      level < unaryLevel →
      Derives isIdentifier (.level (level + 1)) tokens expr →
      Derives isIdentifier (.level level) tokens expr
  | binary {level : Nat} {operator : Token} {lefts rights : List Token} {left right : Expr} :
      operatorTerminals[level]? = some operator.terminal →
      Derives isIdentifier (.level (leftLevel level)) lefts left →
      Derives isIdentifier (.level (level + 1)) rights right →
      Derives isIdentifier (.level level) (lefts ++ operator :: rights)
        (.binary ⟨left.span.start, right.span.stop⟩ (BinaryOperator.ofLexeme operator.lexeme)
          left right)
  | unary {operator : Token} {operands : List Token} {operand : Expr} :
      operator.terminal = .unary →
      Derives isIdentifier (.level unaryLevel) operands operand →
      Derives isIdentifier (.level unaryLevel) (operator :: operands)
        (.unary ⟨operator.start, operand.span.stop⟩ (UnaryOperator.ofLexeme operator.lexeme)
          operand)
  | operand {tokens : List Token} {expr : Expr} :
      Derives isIdentifier .primary tokens expr →
      Derives isIdentifier (.level unaryLevel) tokens expr
  | access {dot name : Token} {targets : List Token} {target : Expr} :
      Derives isIdentifier .primary targets target →
      dot.terminal = .dot →
      IsFieldName name →
      Derives isIdentifier .primary (targets ++ [dot, name])
        (.access ⟨target.span.start, name.stop⟩ target (fieldNameOf name))
  | callEmpty {opening closing : Token} {callees : List Token} {callee : Expr} :
      Derives isIdentifier .primary callees callee →
      opening.terminal = .openParen →
      closing.terminal = .closeParen →
      Derives isIdentifier .primary (callees ++ [opening, closing])
        (.call ⟨callee.span.start, closing.stop⟩ callee [])
  | call {opening closing : Token} {callees tokens : List Token} {callee : Expr}
      {arguments : List Item} :
      Derives isIdentifier .primary callees callee →
      opening.terminal = .openParen →
      Separated Item.tokens arguments tokens →
      (∀ argument ∈ arguments, Derives isIdentifier .expr argument.tokens argument.expr) →
      closing.terminal = .closeParen →
      Derives isIdentifier .primary (callees ++ opening :: (tokens ++ [closing]))
        (.call ⟨callee.span.start, closing.stop⟩ callee (arguments.map Item.expr))
  | plain {tokens : List Token} {expr : Expr} :
      Derives isIdentifier .atom tokens expr →
      Derives isIdentifier .primary tokens expr
  | number {token : Token} :
      token.terminal = .number →
      Derives isIdentifier .atom [token] (.number token.span (numberValue token))
  | string {token : Token} :
      token.terminal = .string →
      Derives isIdentifier .atom [token] (.string token.span (stringValue token))
  | trueWord {token : Token} :
      token.terminal = .keyword .trueWord →
      Derives isIdentifier .atom [token] (.boolean token.span true)
  | falseWord {token : Token} :
      token.terminal = .keyword .falseWord →
      Derives isIdentifier .atom [token] (.boolean token.span false)
  | nullWord {token : Token} :
      token.terminal = .keyword .nullWord →
      Derives isIdentifier .atom [token] (.null token.span)
  | identifier {token : Token} :
      token.terminal = .name →
      isIdentifier token.lexeme →
      Derives isIdentifier .atom [token] (.identifier token.span token.lexeme)
  | importOf {importWord path : Token} :
      importWord.terminal = .keyword .importWord →
      path.terminal = .string →
      Derives isIdentifier .atom [importWord, path]
        (.importOf ⟨importWord.start, path.stop⟩ (stringValue path))
  | recordEmpty {opening closing : Token} :
      opening.terminal = .openBrace →
      closing.terminal = .closeBrace →
      Derives isIdentifier .atom [opening, closing] (.record ⟨opening.start, closing.stop⟩ [])
  | record {opening closing : Token} {tokens trailing : List Token} {fields : List FieldItem} :
      opening.terminal = .openBrace →
      Separated FieldItem.tokens fields tokens →
      (∀ field ∈ fields, field.WellFormed) →
      (∀ field ∈ fields, Derives isIdentifier .expr field.values field.value) →
      Trailing trailing →
      closing.terminal = .closeBrace →
      Derives isIdentifier .atom (opening :: (tokens ++ (trailing ++ [closing])))
        (.record ⟨opening.start, closing.stop⟩ (fields.map FieldItem.field))
  | arrayEmpty {opening closing : Token} :
      opening.terminal = .openBracket →
      closing.terminal = .closeBracket →
      Derives isIdentifier .atom [opening, closing] (.array ⟨opening.start, closing.stop⟩ [])
  | array {opening closing : Token} {tokens trailing : List Token} {items : List Item} :
      opening.terminal = .openBracket →
      Separated Item.tokens items tokens →
      (∀ item ∈ items, Derives isIdentifier .expr item.tokens item.expr) →
      Trailing trailing →
      closing.terminal = .closeBracket →
      Derives isIdentifier .atom (opening :: (tokens ++ (trailing ++ [closing])))
        (.array ⟨opening.start, closing.stop⟩ (items.map Item.expr))
  | group {opening closing : Token} {tokens : List Token} {expr : Expr} :
      opening.terminal = .openParen →
      Derives isIdentifier .expr tokens expr →
      closing.terminal = .closeParen →
      Derives isIdentifier .atom (opening :: (tokens ++ [closing])) expr

end ConfigGraph.Grammar
