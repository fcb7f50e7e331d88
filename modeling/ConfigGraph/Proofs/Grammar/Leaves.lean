import ConfigGraph.Proofs.Grammar.Spans

/-!
# Tokens in trees

A number, a string, a boolean, a null or an identifier of a parsed tree is made of one token.
Conversely every string token of a text is used by some node: as a literal, as the path of an
import, as the name of a field, or as the name of a field that is accessed.
-/

namespace ConfigGraph.Grammar

open ConfigGraph.Parser ConfigGraph.Expr

/-- The expressions that are made of one token. -/
def IsLeaf : Expr → Bool
  | .number .. | .string .. | .boolean .. | .null _ | .identifier .. => true
  | _ => false

/-- The leaf that a token makes by itself. -/
def leaf? (token : Token) : Option Expr :=
  match token.terminal with
  | .number => some (.number token.span (numberValue token))
  | .string => some (.string token.span (stringValue token))
  | .keyword .trueWord => some (.boolean token.span true)
  | .keyword .falseWord => some (.boolean token.span false)
  | .keyword .nullWord => some (.null token.span)
  | .name => some (.identifier token.span token.lexeme)
  | _ => none

/-- A leaf has the span of its token. -/
theorem span_of_leaf? {token : Token} {leaf : Expr} (made : leaf? token = some leaf) :
    leaf.span = token.span := by
  unfold leaf? at made
  split at made <;> cases made <;> rfl

/-- A node takes the value of a string token, and ends or starts with the token. -/
inductive Uses (token : Token) : Node → Prop where
  | literal : Uses token (.expr (.string token.span (stringValue token)))
  | path {start : Nat} : Uses token (.expr (.importOf ⟨start, token.stop⟩ (stringValue token)))
  | fieldName {stop : Nat} {value : Expr} :
      Uses token (.field ⟨token.start, stop⟩ (stringValue token) value)
  | accessName {start : Nat} {target : Expr} :
      Uses token (.expr (.access ⟨start, token.stop⟩ target (stringValue token)))

/-- What the nodes show of a row of tokens. -/
structure Shows (tokens : List Token) (nodes : List Node) : Prop where
  /-- Every leaf is made of a token. -/
  leaves : ∀ leaf, .expr leaf ∈ nodes → IsLeaf leaf = true →
    ∃ token ∈ tokens, leaf? token = some leaf
  /-- Every string token is used. -/
  strings : ∀ token ∈ tokens, token.terminal = .string → ∃ node ∈ nodes, Uses token node

namespace Shows

/-- Tokens that are no strings need no node. -/
theorem silent {tokens : List Token} (others : ∀ token ∈ tokens, token.terminal ≠ .string) :
    Shows tokens [] :=
  ⟨fun _ member _ => absurd member List.not_mem_nil,
    fun token member isString => absurd isString (others token member)⟩

theorem append {lefts rights : List Token} {before behind : List Node}
    (left : Shows lefts before) (right : Shows rights behind) :
    Shows (lefts ++ rights) (before ++ behind) := by
  constructor
  · intro leaf member isLeaf
    rcases List.mem_append.mp member with isBefore | isBehind
    · obtain ⟨token, isToken, made⟩ := left.leaves leaf isBefore isLeaf
      exact ⟨token, List.mem_append_left _ isToken, made⟩
    · obtain ⟨token, isToken, made⟩ := right.leaves leaf isBehind isLeaf
      exact ⟨token, List.mem_append_right _ isToken, made⟩
  · intro token member isString
    rcases List.mem_append.mp member with isLeft | isRight
    · obtain ⟨node, isNode, uses⟩ := left.strings token isLeft isString
      exact ⟨node, List.mem_append_left _ isNode, uses⟩
    · obtain ⟨node, isNode, uses⟩ := right.strings token isRight isString
      exact ⟨node, List.mem_append_right _ isNode, uses⟩

/-- A token that is no string, in front of others. -/
theorem cons {token : Token} {tokens : List Token} {nodes : List Node}
    (other : token.terminal ≠ .string) (shown : Shows tokens nodes) :
    Shows (token :: tokens) nodes :=
  (silent (List.forall_mem_singleton.mpr other)).append shown

/-- A token that is no string, behind others. -/
theorem concat {token : Token} {tokens : List Token} {nodes : List Node}
    (shown : Shows tokens nodes) (other : token.terminal ≠ .string) :
    Shows (tokens ++ [token]) nodes := by
  have both := shown.append (silent (List.forall_mem_singleton.mpr other))
  rwa [List.append_nil] at both

/-- The order of the nodes does not matter. -/
theorem perm {tokens : List Token} {nodes others : List Node} (shown : Shows tokens nodes)
    (same : nodes.Perm others) : Shows tokens others := by
  constructor
  · exact fun leaf member => shown.leaves leaf (same.mem_iff.mpr member)
  · intro token member isString
    obtain ⟨node, isNode, uses⟩ := shown.strings token member isString
    exact ⟨node, same.mem_iff.mp isNode, uses⟩

/-- A node that is no leaf, above others. -/
theorem root {tokens : List Token} {root : Expr} {nodes : List Node} (shown : Shows tokens nodes)
    (noLeaf : IsLeaf root = false) : Shows tokens (.expr root :: nodes) := by
  constructor
  · intro leaf member isLeaf
    rcases List.mem_cons.mp member with same | inside
    · cases same
      rw [noLeaf] at isLeaf
      cases isLeaf
    · exact shown.leaves leaf inside isLeaf
  · intro token member isString
    obtain ⟨node, isNode, uses⟩ := shown.strings token member isString
    exact ⟨node, List.mem_cons_of_mem _ isNode, uses⟩

theorem leaf {token : Token} {leaf : Expr} (made : leaf? token = some leaf)
    (uses : token.terminal = .string → Uses token (.expr leaf)) : Shows [token] [.expr leaf] := by
  constructor
  · intro other member _
    cases List.mem_singleton.mp member
    exact ⟨token, List.mem_singleton_self _, made⟩
  · intro other member isString
    cases List.mem_singleton.mp member
    exact ⟨_, List.mem_singleton_self _, uses isString⟩

/-- A name, and a node above it that is no leaf and uses it if it is a string. -/
theorem name {token : Token} {node : Node}
    (noLeaf : ∀ leaf, node = .expr leaf → IsLeaf leaf = false)
    (uses : token.terminal = .string → Uses token node) : Shows [token] [node] := by
  constructor
  · intro leaf member isLeaf
    rw [noLeaf leaf (List.mem_singleton.mp member).symm] at isLeaf
    cases isLeaf
  · intro other member isString
    cases List.mem_singleton.mp member
    exact ⟨_, List.mem_singleton_self _, uses isString⟩

end Shows

theorem fieldNameOf_string {token : Token} (isString : token.terminal = .string) :
    fieldNameOf token = stringValue token := if_pos isString

theorem ne_string_of_terminal {token : Token} {terminal : Terminal}
    (isTerminal : token.terminal = terminal) (other : terminal ≠ .string) :
    token.terminal ≠ .string := by
  rwa [isTerminal]

theorem Separated.shows {α : Type} {tokensOf : α → List Token} {nodesOf : α → List Node}
    {members : List α} {tokens : List Token} (separated : Separated tokensOf members tokens)
    (each : ∀ member ∈ members, Shows (tokensOf member) (nodesOf member)) :
    Shows tokens (members.flatMap nodesOf) := by
  induction separated with
  | single member => simpa using each member List.mem_cons_self
  | more last _ isComma induction =>
      rw [List.flatMap_append, List.flatMap_singleton]
      have before := induction fun member isMember => each member (List.mem_append_left _ isMember)
      have behind := each last (List.mem_append_right _ List.mem_cons_self)
      exact before.append (behind.cons (ne_string_of_terminal isComma (by decide)))

theorem Trailing.shows {tokens : List Token} (trailing : Trailing tokens) : Shows tokens [] := by
  cases trailing with
  | nothing => exact .silent (List.forall_mem_nil _)
  | comma isComma =>
      exact .silent (List.forall_mem_singleton.mpr (ne_string_of_terminal isComma (by decide)))

theorem FieldItem.shows {item : FieldItem} (wellFormed : item.WellFormed)
    (value : Shows item.values item.value.nodes) :
    Shows item.tokens (.field item.field.1 item.field.2.1 item.value :: item.value.nodes) := by
  have isName : Shows [item.name] [.field item.field.1 item.field.2.1 item.value] := by
    refine .name (fun _ same => Node.noConfusion same) fun isString => ?_
    rw [field, fieldNameOf_string isString]
    exact .fieldName
  exact isName.append (value.cons (ne_string_of_terminal wellFormed.2 (by decide)))

/-- A derived tree shows its tokens. -/
theorem Derives.shows {isIdentifier : Text → Prop} {category : Category} {tokens : List Token}
    {tree : Expr} (derivation : Derives isIdentifier category tokens tree) :
    Shows tokens tree.nodes := by
  have other {token : Token} {terminal : Terminal} (isTerminal : token.terminal = terminal)
      (differs : terminal ≠ .string) : token.terminal ≠ .string :=
    ne_string_of_terminal isTerminal differs
  induction derivation with
  | letIn isLet isName isEquals _ isIn _ value body =>
      have parts := value.append (body.cons (other isIn (by decide)))
      exact (((parts.cons (other isEquals (by decide))).cons
        (other isName (by decide))).cons (other isLet (by decide))).root rfl
  | function isFun areNames isArrow _ body =>
      have names := Shows.silent fun token member => other (areNames token member) (by decide)
      have parts := names.append (body.cons (other isArrow (by decide)))
      exact (parts.cons (other isFun (by decide))).root rfl
  | conditional isIf _ isThen _ isElse _ condition thenBranch elseBranch =>
      have branches := thenBranch.append (elseBranch.cons (other isElse (by decide)))
      have parts := condition.append (branches.cons (other isThen (by decide)))
      rw [← List.append_assoc] at parts
      exact (parts.cons (other isIf (by decide))).root rfl
  | operation _ operation => exact operation
  | tighter _ _ tighter => exact tighter
  | @binary level operator _ _ _ _ isOperator _ _ left right =>
      have noString : operator.terminal ≠ .string := by
        intro isString
        rw [isString] at isOperator
        exact absurd (List.mem_of_getElem? isOperator) (by decide)
      exact (left.append (right.cons noString)).root rfl
  | unary isUnary _ operand => exact (operand.cons (other isUnary (by decide))).root rfl
  | operand _ operand => exact operand
  | @access dot name targets target _ isDot isName shown =>
      have isUsed : Shows [name]
          [.expr (.access ⟨target.span.start, name.stop⟩ target (fieldNameOf name))] := by
        refine .name (fun _ same => by cases same; rfl) fun isString => ?_
        rw [fieldNameOf_string isString]
        exact .accessName
      have parts := shown.append (isUsed.cons (other isDot (by decide)))
      exact parts.perm (List.perm_append_singleton _ _)
  | callEmpty _ isOpening isClosing callee =>
      have behind : Shows [_, _] [] :=
        ((Shows.silent (List.forall_mem_nil _)).cons (other isClosing (by decide))).cons
          (other isOpening (by decide))
      exact (callee.append behind).root rfl
  | call _ isOpening separated _ isClosing callee argument =>
      have arguments := separated.shows argument
      rw [← itemNodes_map] at arguments
      have behind := (arguments.concat (other isClosing (by decide))).cons
        (other isOpening (by decide))
      exact (callee.append behind).root rfl
  | plain _ atom => exact atom
  | importOf isWord _ =>
      exact (Shows.name (fun _ same => by cases same; rfl) fun _ => .path).cons
        (other isWord (by decide))
  | recordEmpty isOpening isClosing =>
      exact (((Shows.silent (List.forall_mem_nil _)).cons (other isClosing (by decide))).cons
        (other isOpening (by decide))).root rfl
  | arrayEmpty isOpening isClosing =>
      exact (((Shows.silent (List.forall_mem_nil _)).cons (other isClosing (by decide))).cons
        (other isOpening (by decide))).root rfl
  | record isOpening separated wellFormed _ trailing isClosing value =>
      have fields := separated.shows fun item member =>
        FieldItem.shows (wellFormed item member) (value item member)
      have parts := fields.append (trailing.shows.concat (other isClosing (by decide)))
      rw [List.append_nil, ← fieldNodes_map] at parts
      exact (parts.cons (other isOpening (by decide))).root rfl
  | array isOpening separated _ trailing isClosing item =>
      have items := separated.shows item
      have parts := items.append (trailing.shows.concat (other isClosing (by decide)))
      rw [List.append_nil, ← itemNodes_map] at parts
      exact (parts.cons (other isOpening (by decide))).root rfl
  | group isOpening _ isClosing inside =>
      exact (inside.concat (other isClosing (by decide))).cons (other isOpening (by decide))
  | number isTerminal | trueWord isTerminal | falseWord isTerminal | nullWord isTerminal
  | identifier isTerminal _ =>
      exact .leaf (by rw [leaf?, isTerminal]) fun isString =>
        absurd isString (other isTerminal (by decide))
  | string isString => exact .leaf (by rw [leaf?, isString]) fun _ => .literal

end ConfigGraph.Grammar
