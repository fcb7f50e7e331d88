import ConfigGraph.Proofs.Grammar.Adequacy
import ConfigGraph.Proofs.Nodes

/-!
# Spans of parsed documents

The tokens of a text follow one another, so every node of a parsed tree has a span inside the text
that is not empty, and its imports follow one another too.  In particular no two imports of a
document have the same span.
-/

namespace ConfigGraph.Grammar

open ConfigGraph.Parser ConfigGraph.Expr

/-- Tokens between two offsets, one behind the other. -/
inductive Ordered : Nat → List Token → Nat → Prop where
  | nil {low high : Nat} : low ≤ high → Ordered low [] high
  | cons {low high : Nat} {token : Token} {tokens : List Token} :
      low ≤ token.start →
      token.start < token.stop →
      Ordered token.stop tokens high →
      Ordered low (token :: tokens) high

theorem Ordered.le {low high : Nat} {tokens : List Token} (ordered : Ordered low tokens high) :
    low ≤ high := by
  induction ordered with
  | nil least => exact least
  | cons least inside _ induction => omega

theorem ordered_cons {low high : Nat} {token : Token} {tokens : List Token} :
    Ordered low (token :: tokens) high ↔
      low ≤ token.start ∧ token.start < token.stop ∧ Ordered token.stop tokens high := by
  constructor
  · intro ordered
    cases ordered with
    | cons least inside rest => exact ⟨least, inside, rest⟩
  · rintro ⟨least, inside, rest⟩
    exact .cons least inside rest

theorem Ordered.start_le {low high : Nat} {tokens : List Token} (ordered : Ordered low tokens high)
    {token : Token} (member : token ∈ tokens) : low ≤ token.start := by
  induction ordered with
  | nil => cases member
  | cons least inside _ induction =>
      rcases List.mem_cons.mp member with rfl | later
      · exact least
      · have behind := induction later
        omega

theorem Ordered.split {low high : Nat} {lefts rights : List Token}
    (ordered : Ordered low (lefts ++ rights) high) :
    ∃ middle, Ordered low lefts middle ∧ Ordered middle rights high := by
  induction lefts generalizing low with
  | nil => exact ⟨low, .nil (Nat.le_refl _), ordered⟩
  | cons token lefts induction =>
      cases ordered with
      | cons least inside rest =>
          obtain ⟨middle, left, right⟩ := induction rest
          exact ⟨middle, .cons least inside left, right⟩

theorem Ordered.pair {low high : Nat} {first second : Token}
    (ordered : Ordered low [first, second] high) :
    low ≤ first.start ∧ first.start < second.stop ∧ second.stop ≤ high := by
  simp only [ordered_cons] at ordered
  obtain ⟨start, _, _, _, rest⟩ := ordered
  have stop := rest.le
  exact ⟨start, by omega, stop⟩

/-- Tokens in brackets. -/
theorem Ordered.bracketed {low high : Nat} {opening closing : Token} {tokens trailing : List Token}
    (ordered : Ordered low (opening :: (tokens ++ (trailing ++ [closing]))) high) :
    ∃ middle, Ordered opening.stop tokens middle ∧ low ≤ opening.start ∧
      opening.start < opening.stop ∧ middle < closing.stop ∧ closing.stop ≤ high := by
  obtain ⟨start, nonempty, rest⟩ := ordered_cons.mp ordered
  obtain ⟨middle, inside, rest⟩ := rest.split
  obtain ⟨last, behind, rest⟩ := rest.split
  obtain ⟨_, _, rest⟩ := ordered_cons.mp rest
  have middlemost := behind.le
  have highest := rest.le
  exact ⟨middle, inside, start, nonempty, by omega, highest⟩

/-- The tokens of a text are between its offsets. -/
theorem Written.ordered {spaced : Bool} {offset : Nat} {tokens : List Token} {text : Text}
    (written : Written spaced offset tokens text) :
    Ordered offset tokens (offset + text.length) := by
  induction written with
  | finish _ => exact .nil (Nat.le_add_right _ _)
  | @token offset gap rest token tokens _ genuine start _ _ induction =>
      have nonempty : 0 < token.lexeme.length :=
        List.length_pos_iff.mpr (Lexeme.ne_nil genuine)
      have behind : token.stop + rest.length =
          offset + (gap ++ (token.lexeme ++ rest)).length := by
        simp only [Token.stop, start, List.length_append]
        omega
      rw [behind] at induction
      refine .cons (by omega) ?_ induction
      unfold Token.stop
      omega

/-- Nodes between two offsets: their spans are not empty, and the imports among them stand one
behind the other. -/
structure Placed (low high : Nat) (nodes : List Node) : Prop where
  inside : ∀ node ∈ nodes,
    low ≤ node.span.start ∧ node.span.start < node.span.stop ∧ node.span.stop ≤ high
  imports : (nodes.filterMap Node.import?).Pairwise fun before behind =>
    before.span.stop ≤ behind.span.start

namespace Placed

theorem nil (low high : Nat) : Placed low high [] := ⟨by simp, .nil⟩

theorem mono {low high lower higher : Nat} {nodes : List Node} (placed : Placed low high nodes)
    (least : lower ≤ low) (most : high ≤ higher) : Placed lower higher nodes := by
  refine ⟨fun node member => ?_, placed.imports⟩
  obtain ⟨start, nonempty, stop⟩ := placed.inside node member
  exact ⟨Nat.le_trans least start, nonempty, Nat.le_trans stop most⟩

/-- The span of an import is that of its node. -/
theorem span_of_import? {node : Node} {site : ImportSite} (found : node.import? = some site) :
    site.span = node.span := by
  cases node with
  | field _ _ _ => cases found
  | expr expr =>
      cases expr <;> cases found
      rfl

/-- Nodes between two pairs of offsets, the second pair behind the first. -/
theorem append {low middle behind high : Nat} {lefts rights : List Node}
    (left : Placed low middle lefts) (right : Placed behind high rights) (low_le : low ≤ behind)
    (gap : middle ≤ behind) (le_high : middle ≤ high) : Placed low high (lefts ++ rights) := by
  constructor
  · intro node member
    rcases List.mem_append.mp member with isLeft | isRight
    · exact (left.mono (Nat.le_refl _) le_high).inside node isLeft
    · exact (right.mono low_le (Nat.le_refl _)).inside node isRight
  · rw [List.filterMap_append, List.pairwise_append]
    refine ⟨left.imports, right.imports, ?_⟩
    intro before isBefore later isLater
    obtain ⟨first, isFirst, found⟩ := List.mem_filterMap.mp isBefore
    obtain ⟨second, isSecond, alsoFound⟩ := List.mem_filterMap.mp isLater
    rw [span_of_import? found, span_of_import? alsoFound]
    exact Nat.le_trans (left.inside first isFirst).2.2
      (Nat.le_trans gap (right.inside second isSecond).1)

theorem cons {low high : Nat} {node : Node} {nodes : List Node} (placed : Placed low high nodes)
    (noImport : node.import? = none) (start : low ≤ node.span.start)
    (nonempty : node.span.start < node.span.stop) (stop : node.span.stop ≤ high) :
    Placed low high (node :: nodes) := by
  constructor
  · exact List.forall_mem_cons.mpr ⟨⟨start, nonempty, stop⟩, placed.inside⟩
  · rw [List.filterMap_cons_none noImport]
    exact placed.imports

theorem root {low high first last : Nat} {root : Expr} {nodes : List Node}
    (placed : Placed low high nodes) (span : root.span = ⟨first, last⟩)
    (noImport : (Node.expr root).import? = none) (start : low ≤ first) (nonempty : first < last)
    (stop : last ≤ high) : Placed low high (.expr root :: nodes) := by
  apply placed.cons noImport
  · rw [Node.span, span]
    exact start
  · rw [Node.span, span]
    exact nonempty
  · rw [Node.span, span]
    exact stop

theorem leaf {low high first last : Nat} {leaf : Expr} (span : leaf.span = ⟨first, last⟩)
    (start : low ≤ first) (nonempty : first < last) (stop : last ≤ high) :
    Placed low high [.expr leaf] := by
  constructor
  · intro other member
    cases List.mem_singleton.mp member
    rw [Node.span, span]
    exact ⟨start, nonempty, stop⟩
  · cases found : (Node.expr leaf).import? <;> simp [found]

theorem expr {low high : Nat} {expr : Expr} (placed : Placed low high expr.nodes) :
    low ≤ expr.span.start ∧ expr.span.start < expr.span.stop ∧ expr.span.stop ≤ high :=
  placed.inside _ (mem_nodes_self expr)

end Placed

theorem Separated.placed {α : Type} {tokensOf : α → List Token} {nodesOf : α → List Node}
    {members : List α} {tokens : List Token} (separated : Separated tokensOf members tokens)
    (each : ∀ member ∈ members, ∀ low high, Ordered low (tokensOf member) high →
      Placed low high (nodesOf member)) {low high : Nat} (ordered : Ordered low tokens high) :
    Placed low high (members.flatMap nodesOf) := by
  induction separated generalizing high with
  | single member =>
      simpa using each member List.mem_cons_self low high ordered
  | @more comma members tokens last _ _ induction =>
      obtain ⟨middle, before, rest⟩ := ordered.split
      obtain ⟨gap, nonempty, behind⟩ := ordered_cons.mp rest
      have first := induction
        (fun member isMember => each member (List.mem_append_left _ isMember)) before
      have second := each last (List.mem_append_right _ List.mem_cons_self) _ _ behind
      have lowest := before.le
      have highest := behind.le
      rw [List.flatMap_append, List.flatMap_singleton]
      exact first.append second (by omega) (by omega) (by omega)

theorem itemNodes_map (items : List Item) :
    itemNodes (items.map Item.expr) = items.flatMap fun item => item.expr.nodes := by
  rw [itemNodes_eq_flatMap, List.flatMap_map]

theorem fieldNodes_map (items : List FieldItem) :
    fieldNodes (items.map FieldItem.field) =
      items.flatMap fun item => .field item.field.1 item.field.2.1 item.value ::
        item.value.nodes := by
  rw [fieldNodes_eq_flatMap, List.flatMap_map]
  rfl

theorem FieldItem.placed {item : FieldItem} {low high : Nat}
    (ordered : Ordered low item.tokens high)
    (value : ∀ low high, Ordered low item.values high → Placed low high item.value.nodes) :
    Placed low high (.field item.field.1 item.field.2.1 item.value :: item.value.nodes) := by
  obtain ⟨first, _, rest⟩ := ordered_cons.mp ordered
  obtain ⟨second, _, values⟩ := ordered_cons.mp rest
  have inner := value _ _ values
  obtain ⟨start, nonempty, stop⟩ := inner.expr
  have name : low ≤ item.name.start ∧ item.name.start < item.value.span.stop := by omega
  exact (inner.mono (by omega) (Nat.le_refl _)).cons rfl name.1 name.2 stop

/-- The nodes of a derived tree are placed between the offsets of its tokens. -/
theorem Derives.placed {isIdentifier : Text → Prop} {category : Category} {tokens : List Token}
    {tree : Expr} (derivation : Derives isIdentifier category tokens tree) {low high : Nat}
    (ordered : Ordered low tokens high) : Placed low high tree.nodes := by
  induction derivation generalizing low high with
  | letIn _ _ _ _ _ _ value body =>
      simp only [ordered_cons] at ordered
      obtain ⟨_, _, _, _, _, _, rest⟩ := ordered
      obtain ⟨middle, values, rest⟩ := rest.split
      obtain ⟨_, _, bodies⟩ := ordered_cons.mp rest
      have lowest := values.le
      obtain ⟨_, _, _⟩ := (body bodies).expr
      have parts := (value values).append (body bodies) (by omega) (by omega) (by omega)
      exact (parts.mono (by omega) (Nat.le_refl _)).root rfl rfl (by omega) (by omega) (by omega)
  | function _ _ _ _ body =>
      obtain ⟨_, _, rest⟩ := ordered_cons.mp ordered
      obtain ⟨middle, parameters, rest⟩ := rest.split
      obtain ⟨_, _, bodies⟩ := ordered_cons.mp rest
      have lowest := parameters.le
      obtain ⟨_, _, _⟩ := (body bodies).expr
      have inner := (body bodies).mono (show low ≤ _ by omega) (Nat.le_refl _)
      exact inner.root rfl rfl (by omega) (by omega) (by omega)
  | conditional _ _ _ _ _ _ condition thenBranch elseBranch =>
      obtain ⟨_, _, rest⟩ := ordered_cons.mp ordered
      obtain ⟨middle, conditions, rest⟩ := rest.split
      obtain ⟨_, _, rest⟩ := ordered_cons.mp rest
      obtain ⟨last, thens, rest⟩ := rest.split
      obtain ⟨_, _, elses⟩ := ordered_cons.mp rest
      have lowest := conditions.le
      have middlemost := thens.le
      obtain ⟨_, _, _⟩ := (elseBranch elses).expr
      have branches := (condition conditions).append (thenBranch thens) (by omega) (by omega)
        (show middle ≤ last by omega)
      have parts := branches.append (elseBranch elses) (by omega) (by omega) (by omega)
      exact (parts.mono (by omega) (Nat.le_refl _)).root rfl rfl (by omega) (by omega) (by omega)
  | operation _ operation => exact operation ordered
  | tighter _ _ tighter => exact tighter ordered
  | binary _ _ _ left right =>
      obtain ⟨middle, lefts, rest⟩ := ordered.split
      obtain ⟨_, _, rights⟩ := ordered_cons.mp rest
      have lowest := lefts.le
      obtain ⟨_, _, _⟩ := (left lefts).expr
      obtain ⟨_, _, _⟩ := (right rights).expr
      have parts := (left lefts).append (right rights) (by omega) (by omega) (by omega)
      exact parts.root rfl rfl (by omega) (by omega) (by omega)
  | unary _ _ operand =>
      obtain ⟨_, _, operands⟩ := ordered_cons.mp ordered
      obtain ⟨_, _, _⟩ := (operand operands).expr
      have inner := (operand operands).mono (show low ≤ _ by omega) (Nat.le_refl _)
      exact inner.root rfl rfl (by omega) (by omega) (by omega)
  | operand _ operand => exact operand ordered
  | access _ _ _ target =>
      obtain ⟨middle, targets, rest⟩ := ordered.split
      simp only [ordered_cons] at rest
      obtain ⟨_, _, _, _, rest⟩ := rest
      have highest := rest.le
      obtain ⟨_, _, _⟩ := (target targets).expr
      have inner := (target targets).mono (Nat.le_refl _) (show _ ≤ high by omega)
      exact inner.root rfl rfl (by omega) (by omega) (by omega)
  | callEmpty _ _ _ callee =>
      obtain ⟨middle, callees, rest⟩ := ordered.split
      simp only [ordered_cons] at rest
      obtain ⟨_, _, _, _, rest⟩ := rest
      have highest := rest.le
      obtain ⟨_, _, _⟩ := (callee callees).expr
      have inner := (callee callees).append (.nil middle high) (callees.le) (Nat.le_refl _)
        (by omega)
      exact inner.root rfl rfl (by omega) (by omega) (by omega)
  | call _ _ separated _ _ callee argument =>
      obtain ⟨middle, callees, rest⟩ := ordered.split
      obtain ⟨_, _, rest⟩ := ordered_cons.mp rest
      obtain ⟨last, inside, rest⟩ := rest.split
      obtain ⟨_, _, rest⟩ := ordered_cons.mp rest
      have lowest := callees.le
      have middlemost := inside.le
      have highest := rest.le
      obtain ⟨_, _, _⟩ := (callee callees).expr
      have arguments := separated.placed (fun one member _ _ => argument one member) inside
      rw [← itemNodes_map] at arguments
      have parts := (callee callees).append arguments (by omega) (by omega) (by omega)
      have inner := parts.mono (Nat.le_refl _) (show _ ≤ high by omega)
      exact inner.root rfl rfl (by omega) (by omega) (by omega)
  | plain _ atom => exact atom ordered
  | importOf _ _ =>
      obtain ⟨start, nonempty, stop⟩ := ordered.pair
      exact .leaf rfl start nonempty stop
  | recordEmpty _ _ =>
      obtain ⟨start, nonempty, stop⟩ := ordered.pair
      exact .leaf rfl start nonempty stop
  | arrayEmpty _ _ =>
      obtain ⟨start, nonempty, stop⟩ := ordered.pair
      exact .leaf rfl start nonempty stop
  | record _ separated _ _ _ _ value =>
      obtain ⟨middle, inside, start, nonempty, behind, stop⟩ := ordered.bracketed
      have lowest := inside.le
      have fields := separated.placed
        (fun one member _ _ ordered => FieldItem.placed ordered fun _ _ => value one member) inside
      rw [← fieldNodes_map] at fields
      have inner := fields.mono (show low ≤ _ by omega) (show _ ≤ high by omega)
      exact inner.root rfl rfl (by omega) (by omega) (by omega)
  | array _ separated _ _ _ item =>
      obtain ⟨middle, inside, start, nonempty, behind, stop⟩ := ordered.bracketed
      have lowest := inside.le
      have items := separated.placed (fun one member _ _ => item one member) inside
      rw [← itemNodes_map] at items
      have inner := items.mono (show low ≤ _ by omega) (show _ ≤ high by omega)
      exact inner.root rfl rfl (by omega) (by omega) (by omega)
  | group _ _ _ inside =>
      obtain ⟨_, _, rest⟩ := ordered_cons.mp ordered
      obtain ⟨middle, tokens, rest⟩ := rest.split
      obtain ⟨_, _, rest⟩ := ordered_cons.mp rest
      have highest := rest.le
      exact (inside tokens).mono (by omega) (by omega)
  | _ =>
      obtain ⟨_, _, rest⟩ := ordered_cons.mp ordered
      have highest := rest.le
      exact .leaf rfl (by omega) (by omega) (by omega)

theorem placed_of_parseExpr {text : Text} {tree : Expr} (parsed : parseExpr text = .ok tree) :
    Placed 0 text.length tree.nodes := by
  obtain ⟨tokens, written, _, derivation⟩ := derives_of_parseExpr parsed
  have ordered := written.ordered
  rw [Nat.zero_add] at ordered
  exact derivation.placed ordered

end ConfigGraph.Grammar
