import ConfigGraph.Proofs.Cursor
import ConfigGraph.Proofs.Grammar.Leaves
import ConfigGraph.Proofs.Outline

/-!
# Spans that nest

The nodes right below a node of a parsed tree stand inside of it and one behind the other, since
their tokens do.  So a walk over the tree goes through the text from left to right, and comes to no
span twice.  A leaf covers just the token that it is made of.
-/

namespace ConfigGraph.Grammar

open ConfigGraph.Parser ConfigGraph.Expr

/-- Nodes side by side between two offsets, one behind the other. -/
structure InRow (low high : Nat) (row : List Node) : Prop where
  inside : ∀ node ∈ row, low ≤ node.span.start ∧ node.span.stop ≤ high
  ordered : row.Pairwise fun before behind => before.span.stop ≤ behind.span.start

namespace InRow

theorem nil (low high : Nat) : InRow low high [] := ⟨List.forall_mem_nil _, .nil⟩

theorem mono {low high lower higher : Nat} {row : List Node} (inRow : InRow low high row)
    (least : lower ≤ low) (most : high ≤ higher) : InRow lower higher row := by
  refine ⟨fun node member => ?_, inRow.ordered⟩
  obtain ⟨start, stop⟩ := inRow.inside node member
  exact ⟨Nat.le_trans least start, Nat.le_trans stop most⟩

/-- Nodes between two pairs of offsets, the second pair behind the first. -/
theorem append {low middle behind high : Nat} {lefts rights : List Node}
    (left : InRow low middle lefts) (right : InRow behind high rights) (low_le : low ≤ behind)
    (gap : middle ≤ behind) (le_high : middle ≤ high) : InRow low high (lefts ++ rights) := by
  constructor
  · intro node member
    rcases List.mem_append.mp member with isLeft | isRight
    · exact (left.mono (Nat.le_refl _) le_high).inside node isLeft
    · exact (right.mono low_le (Nat.le_refl _)).inside node isRight
  · refine List.pairwise_append.mpr ⟨left.ordered, right.ordered, fun first isFirst last isLast => ?_⟩
    exact Nat.le_trans (left.inside first isFirst).2
      (Nat.le_trans gap (right.inside last isLast).1)

theorem single (expr : Expr) : InRow expr.span.start expr.span.stop [.expr expr] :=
  ⟨List.forall_mem_singleton.mpr ⟨Nat.le_refl _, Nat.le_refl _⟩, List.pairwise_singleton _ _⟩

/-- The first of some placed nodes is in its place. -/
theorem head {low high : Nat} {node : Node} {nodes : List Node}
    (placed : Placed low high (node :: nodes)) : InRow low high [node] := by
  obtain ⟨start, _, stop⟩ := placed.inside node List.mem_cons_self
  exact ⟨List.forall_mem_singleton.mpr ⟨start, stop⟩, List.pairwise_singleton _ _⟩

/-- A node with its children in a row nests, if the row leaves something of its span free. -/
theorem nests {low high first last : Nat} {node : Node} (inRow : InRow low high node.children)
    (span : node.span = ⟨first, last⟩) (start : first ≤ low) (stop : high ≤ last)
    (free : first < low ∨ high < last) : node.Nests := by
  refine ⟨?_, fun child member => ?_, inRow.ordered⟩
  · rw [span]
    exact (inRow.mono start stop).inside
  · obtain ⟨childStart, childStop⟩ := inRow.inside child member
    rw [span]
    dsimp only
    omega

end InRow

theorem nests_of_childless {node : Node} (childless : node.children = []) : node.Nests :=
  ⟨by simp [childless], by simp [childless], by simp [childless]⟩

/-- The nodes of the members of a row of tokens are in a row. -/
theorem Separated.inRow {α : Type} {tokensOf : α → List Token} {nodeOf : α → Node}
    {members : List α} {tokens : List Token} (separated : Separated tokensOf members tokens)
    (each : ∀ member ∈ members, ∀ low high, Ordered low (tokensOf member) high →
      InRow low high [nodeOf member]) {low high : Nat} (ordered : Ordered low tokens high) :
    InRow low high (members.map nodeOf) := by
  induction separated generalizing high with
  | single member => exact each member List.mem_cons_self low high ordered
  | @more comma members tokens last _ _ induction =>
      obtain ⟨middle, before, rest⟩ := ordered.split
      obtain ⟨gap, nonempty, behind⟩ := ordered_cons.mp rest
      have first := induction
        (fun member isMember => each member (List.mem_append_left _ isMember)) before
      have second := each last (List.mem_append_right _ List.mem_cons_self) _ _ behind
      have lowest := before.le
      have highest := behind.le
      rw [List.map_append]
      exact first.append second (by omega) (by omega) (by omega)

/-- A member of a row of tokens has its own tokens between two offsets. -/
theorem Separated.ordered_of_mem {α : Type} {tokensOf : α → List Token} {members : List α}
    {tokens : List Token} (separated : Separated tokensOf members tokens) {low high : Nat}
    (ordered : Ordered low tokens high) {member : α} (isMember : member ∈ members) :
    ∃ first last, Ordered first (tokensOf member) last := by
  induction separated generalizing high with
  | single only =>
      cases List.mem_singleton.mp isMember
      exact ⟨low, high, ordered⟩
  | more last _ _ induction =>
      obtain ⟨middle, before, rest⟩ := ordered.split
      obtain ⟨_, _, behind⟩ := ordered_cons.mp rest
      rcases List.mem_append.mp isMember with isBefore | isLast
      · exact induction before isBefore
      · cases List.mem_singleton.mp isLast
        exact ⟨_, _, behind⟩

/-- The items of an array or the arguments of a call, each derived from its tokens. -/
theorem Separated.items_nest {isIdentifier : Text → Prop} {items : List Item} {tokens : List Token}
    (separated : Separated Item.tokens items tokens)
    (derivations : ∀ item ∈ items, Derives isIdentifier .expr item.tokens item.expr)
    (each : ∀ item ∈ items, ∀ {low high}, Ordered low item.tokens high →
      ∀ node ∈ item.expr.nodes, node.Nests) {low high : Nat} (ordered : Ordered low tokens high) :
    InRow low high ((items.map Item.expr).map .expr) ∧
      ∀ node ∈ itemNodes (items.map Item.expr), node.Nests := by
  constructor
  · rw [List.map_map]
    refine separated.inRow (fun item member low high between => ?_) ordered
    obtain ⟨start, _, stop⟩ := ((derivations item member).placed between).expr
    exact (InRow.single item.expr).mono start stop
  · rw [itemNodes_map]
    intro node member
    obtain ⟨item, isItem, inside⟩ := List.mem_flatMap.mp member
    obtain ⟨_, _, between⟩ := separated.ordered_of_mem ordered isItem
    exact each item isItem between node inside

/-- The fields of a record, each with a value that is derived from its tokens. -/
theorem Separated.fields_nest {isIdentifier : Text → Prop} {items : List FieldItem}
    {tokens : List Token} (separated : Separated FieldItem.tokens items tokens)
    (derivations : ∀ item ∈ items, Derives isIdentifier .expr item.values item.value)
    (each : ∀ item ∈ items, ∀ {low high}, Ordered low item.values high →
      ∀ node ∈ item.value.nodes, node.Nests) {low high : Nat} (ordered : Ordered low tokens high) :
    InRow low high ((items.map FieldItem.field).map fun field =>
        .field field.1 field.2.1 field.2.2) ∧
      ∀ node ∈ fieldNodes (items.map FieldItem.field), node.Nests := by
  constructor
  · rw [List.map_map]
    refine separated.inRow (fun item member low high between => ?_) ordered
    exact .head (FieldItem.placed between fun _ _ => (derivations item member).placed)
  · rw [fieldNodes_map]
    intro node member
    obtain ⟨item, isItem, inside⟩ := List.mem_flatMap.mp member
    obtain ⟨_, _, between⟩ := separated.ordered_of_mem ordered isItem
    obtain ⟨_, _, rest⟩ := ordered_cons.mp between
    obtain ⟨equals, _, values⟩ := ordered_cons.mp rest
    rcases List.mem_cons.mp inside with rfl | inValue
    · obtain ⟨start, _, _⟩ := ((derivations item isItem).placed values).expr
      exact (InRow.single item.value).nests rfl (by omega) (Nat.le_refl _) (.inl (by omega))
    · exact each item isItem values node inValue

/-- All nodes of a derived tree nest. -/
theorem Derives.nests {isIdentifier : Text → Prop} {category : Category} {tokens : List Token}
    {tree : Expr} (derivation : Derives isIdentifier category tokens tree) {low high : Nat}
    (ordered : Ordered low tokens high) : ∀ node ∈ tree.nodes, node.Nests := by
  induction derivation generalizing low high with
  | @letIn letWord name equals inWord _ _ value body _ _ _ isValue _ isBody valueNests bodyNests =>
      simp only [ordered_cons] at ordered
      obtain ⟨_, _, _, _, _, _, rest⟩ := ordered
      obtain ⟨middle, values, rest⟩ := rest.split
      obtain ⟨_, _, bodies⟩ := ordered_cons.mp rest
      obtain ⟨_, _, _⟩ := (isValue.placed values).expr
      obtain ⟨_, _, _⟩ := (isBody.placed bodies).expr
      have row := (InRow.single value).append (.single body) (by omega) (by omega) (by omega)
      refine List.forall_mem_cons.mpr ⟨?_, List.forall_mem_append.mpr
        ⟨valueNests values, bodyNests bodies⟩⟩
      exact row.nests rfl (by omega) (Nat.le_refl _) (.inl (by omega))
  | @function funWord arrow _ _ body _ _ _ isBody bodyNests =>
      obtain ⟨_, _, rest⟩ := ordered_cons.mp ordered
      obtain ⟨middle, parameters, rest⟩ := rest.split
      obtain ⟨_, _, bodies⟩ := ordered_cons.mp rest
      have lowest := parameters.le
      obtain ⟨_, _, _⟩ := (isBody.placed bodies).expr
      refine List.forall_mem_cons.mpr ⟨?_, bodyNests bodies⟩
      exact (InRow.single body).nests rfl (by omega) (Nat.le_refl _) (.inl (by omega))
  | @conditional ifWord thenWord elseWord _ _ _ condition thenBranch elseBranch _ isCondition _
      isThen _ isElse conditionNests thenNests elseNests =>
      obtain ⟨_, _, rest⟩ := ordered_cons.mp ordered
      obtain ⟨middle, conditions, rest⟩ := rest.split
      obtain ⟨_, _, rest⟩ := ordered_cons.mp rest
      obtain ⟨last, thens, rest⟩ := rest.split
      obtain ⟨_, _, elses⟩ := ordered_cons.mp rest
      obtain ⟨_, _, _⟩ := (isCondition.placed conditions).expr
      obtain ⟨_, _, _⟩ := (isThen.placed thens).expr
      obtain ⟨_, _, _⟩ := (isElse.placed elses).expr
      have branches := (InRow.single thenBranch).append (.single elseBranch)
        (by omega) (by omega) (by omega)
      have row := (InRow.single condition).append branches (by omega) (by omega) (by omega)
      refine List.forall_mem_cons.mpr ⟨?_, ?_⟩
      · exact row.nests rfl (by omega) (Nat.le_refl _) (.inl (by omega))
      · simp only [List.forall_mem_append]
        exact ⟨⟨conditionNests conditions, thenNests thens⟩, elseNests elses⟩
  | operation _ operation => exact operation ordered
  | tighter _ _ tighter => exact tighter ordered
  | @binary level operator _ _ left right _ isLeft isRight leftNests rightNests =>
      obtain ⟨middle, lefts, rest⟩ := ordered.split
      obtain ⟨_, _, rights⟩ := ordered_cons.mp rest
      obtain ⟨_, _, _⟩ := (isLeft.placed lefts).expr
      obtain ⟨_, _, _⟩ := (isRight.placed rights).expr
      have row := (InRow.single left).append (.single right) (by omega) (by omega) (by omega)
      refine List.forall_mem_cons.mpr ⟨⟨row.inside, ?_, row.ordered⟩, List.forall_mem_append.mpr
        ⟨leftNests lefts, rightNests rights⟩⟩
      -- Both operands reach one end of the operation only.
      have leftShorter : left.span.stop < right.span.stop := by omega
      have rightLater : left.span.start < right.span.start := by omega
      exact List.forall_mem_cons.mpr ⟨.inr leftShorter, List.forall_mem_singleton.mpr
        (.inl rightLater)⟩
  | @unary operator _ operand _ isOperand operandNests =>
      obtain ⟨_, _, operands⟩ := ordered_cons.mp ordered
      obtain ⟨_, _, _⟩ := (isOperand.placed operands).expr
      refine List.forall_mem_cons.mpr ⟨?_, operandNests operands⟩
      exact (InRow.single operand).nests rfl (by omega) (Nat.le_refl _) (.inl (by omega))
  | operand _ operand => exact operand ordered
  | @access dot name _ target isTarget _ _ targetNests =>
      obtain ⟨middle, targets, rest⟩ := ordered.split
      obtain ⟨_, _, _⟩ := rest.pair
      obtain ⟨_, _, _⟩ := (isTarget.placed targets).expr
      refine List.forall_mem_cons.mpr ⟨?_, targetNests targets⟩
      exact (InRow.single target).nests rfl (Nat.le_refl _) (by omega) (.inr (by omega))
  | @callEmpty opening closing _ callee isCallee _ _ calleeNests =>
      obtain ⟨middle, callees, rest⟩ := ordered.split
      obtain ⟨_, _, _⟩ := rest.pair
      obtain ⟨_, _, _⟩ := (isCallee.placed callees).expr
      refine List.forall_mem_cons.mpr ⟨?_, List.forall_mem_append.mpr
        ⟨calleeNests callees, List.forall_mem_nil _⟩⟩
      exact (InRow.single callee).nests rfl (Nat.le_refl _) (by omega) (.inr (by omega))
  | @call opening closing _ _ callee _ isCallee _ separated areArguments _ calleeNests
      argumentNests =>
      obtain ⟨middle, callees, rest⟩ := ordered.split
      obtain ⟨_, _, rest⟩ := ordered_cons.mp rest
      obtain ⟨last, inside, rest⟩ := rest.split
      obtain ⟨_, _, _⟩ := ordered_cons.mp rest
      have highest := inside.le
      obtain ⟨_, _, _⟩ := (isCallee.placed callees).expr
      obtain ⟨arguments, argumentsNest⟩ := separated.items_nest areArguments argumentNests inside
      have row := (InRow.single callee).append arguments (by omega) (by omega) (by omega)
      refine List.forall_mem_cons.mpr ⟨?_, List.forall_mem_append.mpr
        ⟨calleeNests callees, argumentsNest⟩⟩
      exact row.nests rfl (Nat.le_refl _) (by omega) (.inr (by omega))
  | plain _ atom => exact atom ordered
  | record _ separated _ areValues _ _ valueNests =>
      obtain ⟨middle, inside, _, _, behind, _⟩ := ordered.bracketed
      obtain ⟨row, fieldsNest⟩ := separated.fields_nest areValues valueNests inside
      refine List.forall_mem_cons.mpr ⟨?_, fieldsNest⟩
      exact row.nests rfl (by omega) (by omega) (.inr behind)
  | array _ separated areItems _ _ itemNests =>
      obtain ⟨middle, inside, _, _, behind, _⟩ := ordered.bracketed
      obtain ⟨row, itemsNest⟩ := separated.items_nest areItems itemNests inside
      refine List.forall_mem_cons.mpr ⟨?_, itemsNest⟩
      exact row.nests rfl (by omega) (by omega) (.inr behind)
  | group _ _ _ inside =>
      obtain ⟨_, _, rest⟩ := ordered_cons.mp ordered
      obtain ⟨middle, tokens, _⟩ := rest.split
      exact inside tokens
  | _ => exact List.forall_mem_singleton.mpr (nests_of_childless rfl)

/-- A token of a text stands where it says. -/
theorem Written.split_of_mem {spaced : Bool} {offset : Nat} {tokens : List Token} {text : Text}
    (written : Written spaced offset tokens text) {token : Token} (member : token ∈ tokens) :
    ∃ before behind, text = before ++ (token.lexeme ++ behind) ∧
      token.start = offset + before.length := by
  induction written with
  | finish _ => cases member
  | @token offset gap rest first _ _ _ start _ _ induction =>
      rcases List.mem_cons.mp member with rfl | later
      · exact ⟨gap, rest, rfl, start⟩
      · obtain ⟨before, behind, rfl, place⟩ := induction later
        refine ⟨gap ++ (first.lexeme ++ before), behind, ?_, ?_⟩
        · simp only [List.append_assoc]
        · rw [place]
          simp only [Token.stop, start, List.length_append]
          omega

/-- The span of a token covers its lexeme. -/
theorem Written.textIn_of_mem {spaced : Bool} {tokens : List Token} {text : Text}
    (written : Written spaced 0 tokens text) {token : Token} (member : token ∈ tokens) :
    token.span.textIn text = token.lexeme := by
  obtain ⟨before, behind, rfl, place⟩ := written.split_of_mem member
  rw [Nat.zero_add] at place
  rw [Span.textIn, Token.span, Token.stop, Nat.add_sub_cancel_left, place, List.drop_left,
    List.take_left]

/-- The spans of a text that parses.

No span is empty, and all lie inside of the text.  The nodes right below a node lie inside of it and
one behind the other.  So the list of all nodes, which has each node that can be reached from the
top and no other, starts at later and later offsets and has no span twice.  Every leaf is made of
one token of the text, and covers just that token. -/
theorem spans_of_parseExpr {text : Text} {tree : Expr} (parsed : parseExpr text = .ok tree) :
    (∀ node ∈ tree.nodes, node.span.start < node.span.stop ∧ node.span.stop ≤ text.length) ∧
    (∀ node ∈ tree.nodes, ∀ child ∈ node.children,
      node.span.start ≤ child.span.start ∧ child.span.stop ≤ node.span.stop) ∧
    (∀ node ∈ tree.nodes,
      node.children.Pairwise fun before behind => before.span.stop ≤ behind.span.start) ∧
    (∀ node, node ∈ tree.nodes ↔ (Node.expr tree).Reaches node) ∧
    (tree.nodes.map Node.span).Nodup ∧
    (tree.nodes.Pairwise fun before behind => before.span.start ≤ behind.span.start) ∧
    ∃ tokens, Parser.run .initial [] 0 text = .ok (tokens, tree) ∧
      ∀ leaf, .expr leaf ∈ tree.nodes → IsLeaf leaf = true →
        ∃ token ∈ tokens, leaf? token = some leaf ∧ leaf.span.textIn text = token.lexeme := by
  obtain ⟨tokens, ran, _⟩ := parseExpr_eq_ok_iff.mp parsed
  obtain ⟨written, derivation⟩ := derives_of_run ran
  have placed := placed_of_parseExpr parsed
  have nests := derivation.nests written.ordered
  have nonempty : ∀ node ∈ tree.nodes, node.span.start < node.span.stop :=
    fun node member => (placed.inside node member).2.1
  have ahead : tree.nodes.Pairwise Node.Ahead :=
    (@Node.walk_nested (.expr tree) nests nonempty).2
  refine ⟨fun node member => (placed.inside node member).2, fun node member =>
    (nests node member).inside, fun node member => (nests node member).ordered,
    fun node => @Node.mem_walk_iff (.expr tree) node, ?_, ahead.imp Node.Ahead.start_le, tokens,
    ran, ?_⟩
  · exact List.pairwise_map.mpr (ahead.imp Node.Ahead.span_ne)
  · intro leaf member isLeaf
    obtain ⟨token, isToken, made⟩ := derivation.shows.leaves leaf member isLeaf
    refine ⟨token, isToken, made, ?_⟩
    rw [span_of_leaf? made]
    exact written.textIn_of_mem isToken

/-- A difference of differences, the second one in parentheses. -/
def nestedDifferences : Text := "a - b - (c - 1)"

/-- The parentheses widen no span. -/
theorem spans_of_nestedDifferences :
    ∃ tree, parseExpr nestedDifferences = .ok tree ∧
      tree.nodes.map Node.span =
        [⟨0, 14⟩, ⟨0, 5⟩, ⟨0, 1⟩, ⟨4, 5⟩, ⟨9, 14⟩, ⟨9, 10⟩, ⟨13, 14⟩] ∧
      (tree.nodes.map Node.span).Nodup := by
  have listed : (parseExpr nestedDifferences).toOption.map (·.nodes.map Node.span) =
      some [⟨0, 14⟩, ⟨0, 5⟩, ⟨0, 1⟩, ⟨4, 5⟩, ⟨9, 14⟩, ⟨9, 10⟩, ⟨13, 14⟩] := by
    decide +kernel
  cases parsed : parseExpr nestedDifferences with
  | error fault =>
      rw [parsed] at listed
      cases listed
  | ok tree =>
      rw [parsed] at listed
      have distinct := (spans_of_parseExpr parsed).2.2.2.2.1
      exact ⟨tree, rfl, Option.some.inj listed, distinct⟩

end ConfigGraph.Grammar
