import ConfigGraph.Proofs.Nodes

/-!
# The outline of a tree

`Node.children` are the nodes right below a node, in source order, and `Node.walk` lists a node and
all nodes below it, the upper ones first.  Where the nodes right below each node lie inside of it,
smaller than it and one behind the other, a walk goes through the text from left to right and comes
to no span twice.
-/

namespace ConfigGraph.Expr

namespace Node

/-- The nodes right below a node. -/
def children : Node → List Node
  | .expr (.record _ fields) => fields.map fun field => .field field.1 field.2.1 field.2.2
  | .expr (.array _ items) => items.map .expr
  | .expr (.letIn _ _ value body) => [.expr value, .expr body]
  | .expr (.function _ _ body) => [.expr body]
  | .expr (.conditional _ condition thenBranch elseBranch) =>
      [.expr condition, .expr thenBranch, .expr elseBranch]
  | .expr (.binary _ _ left right) => [.expr left, .expr right]
  | .expr (.unary _ _ operand) => [.expr operand]
  | .expr (.access _ target _) => [.expr target]
  | .expr (.call _ callee arguments) => .expr callee :: arguments.map .expr
  | .expr (.number ..) | .expr (.string ..) | .expr (.boolean ..) | .expr (.null _)
  | .expr (.identifier ..) | .expr (.importOf ..) => []
  | .field _ _ value => [.expr value]

/-- A node and all nodes below it. -/
def walk : Node → List Node
  | .expr whole => whole.nodes
  | .field span name value => .field span name value :: value.nodes

/-- A walk starts at the node and goes on with what is right below it. -/
theorem walk_eq (node : Node) : node.walk = node :: node.children.flatMap walk := by
  cases node with
  | field span name value =>
      rw [children, List.flatMap_singleton]
      rfl
  | expr whole =>
      cases whole with
      | record span fields =>
          rw [children, List.flatMap_map, walk, nodes, fieldNodes_eq_flatMap]
          rfl
      | array span items =>
          rw [children, List.flatMap_map, walk, nodes, itemNodes_eq_flatMap]
          rfl
      | call span callee arguments =>
          rw [children, List.flatMap_cons, List.flatMap_map, walk, nodes, itemNodes_eq_flatMap]
          rfl
      | _ => simp [children, walk, nodes]

/-- A node right below another one is smaller. -/
theorem sizeOf_lt_of_mem_children {node child : Node} (member : child ∈ node.children) :
    sizeOf child < sizeOf node := by
  cases node with
  | field span name value =>
      cases List.mem_singleton.mp member
      obtain ⟨start, stop⟩ := span
      simp only [field.sizeOf_spec, expr.sizeOf_spec, Span.mk.sizeOf_spec]
      omega
  | expr whole =>
      have below {part : Expr} (isPart : Part part whole) :
          sizeOf (Node.expr part) < sizeOf (Node.expr whole) := by
        have smaller := isPart.sizeOf_lt
        simp only [expr.sizeOf_spec]
        omega
      cases whole with
      | record span fields =>
          obtain ⟨⟨fieldSpan, name, value⟩, isField, rfl⟩ := List.mem_map.mp member
          have smaller := List.sizeOf_lt_of_mem isField
          simp only [Prod.mk.sizeOf_spec, field.sizeOf_spec, expr.sizeOf_spec,
            record.sizeOf_spec] at smaller ⊢
          omega
      | array span items =>
          obtain ⟨item, isItem, rfl⟩ := List.mem_map.mp member
          exact below (.item isItem)
      | call span callee arguments =>
          rcases List.mem_cons.mp member with rfl | isArgument
          · exact below .callee
          · obtain ⟨argument, inArguments, rfl⟩ := List.mem_map.mp isArgument
            exact below (.argument inArguments)
      | letIn =>
          simp only [children, List.mem_cons, List.not_mem_nil, or_false] at member
          rcases member with rfl | rfl
          · exact below .letValue
          · exact below .letBody
      | function =>
          cases List.mem_singleton.mp member
          exact below .functionBody
      | conditional =>
          simp only [children, List.mem_cons, List.not_mem_nil, or_false] at member
          rcases member with rfl | rfl | rfl
          · exact below .condition
          · exact below .thenBranch
          · exact below .elseBranch
      | binary =>
          simp only [children, List.mem_cons, List.not_mem_nil, or_false] at member
          rcases member with rfl | rfl
          · exact below .left
          · exact below .right
      | unary =>
          cases List.mem_singleton.mp member
          exact below .operand
      | access =>
          cases List.mem_singleton.mp member
          exact below .target
      | _ => cases member

/-- What holds of a node if it holds of the nodes right below it, holds of all nodes. -/
theorem inductionOn {property : Node → Prop}
    (step : ∀ node, (∀ child ∈ node.children, property child) → property node) (node : Node) :
    property node := by
  induction size : sizeOf node using Nat.strongRecOn generalizing node with
  | _ size induction =>
      subst size
      exact step node fun child member => induction _ (sizeOf_lt_of_mem_children member) child rfl

/-- One node is another one or stands below it. -/
abbrev Reaches : Node → Node → Prop :=
  Relation.ReflTransGen fun outer inner => inner ∈ outer.children

/-- A walk comes to the nodes that stand below its start, and to no others. -/
theorem mem_walk_iff {node inner : Node} : inner ∈ node.walk ↔ node.Reaches inner := by
  induction node using inductionOn with
  | step node induction =>
      rw [walk_eq, List.mem_cons, List.mem_flatMap, Reaches, Relation.ReflTransGen.cases_head_iff]
      apply or_congr
      · exact eq_comm
      · apply exists_congr
        intro child
        exact and_congr_right fun member => induction child member

/-! ## Spans that nest -/

/-- The nodes right below a node lie inside of it, smaller than it and one behind the other. -/
structure Nests (node : Node) : Prop where
  inside : ∀ child ∈ node.children,
    node.span.start ≤ child.span.start ∧ child.span.stop ≤ node.span.stop
  smaller : ∀ child ∈ node.children,
    node.span.start < child.span.start ∨ child.span.stop < node.span.stop
  ordered : node.children.Pairwise fun before behind => before.span.stop ≤ behind.span.start

/-- One span comes before another one in a walk: it starts earlier, or at the same place and is
longer. -/
def Ahead (before behind : Node) : Prop :=
  before.span.start < behind.span.start ∨
    before.span.start = behind.span.start ∧ behind.span.stop < before.span.stop

theorem Ahead.start_le {before behind : Node} (ahead : Ahead before behind) :
    before.span.start ≤ behind.span.start := by
  rcases ahead with earlier | ⟨same, _⟩
  · exact Nat.le_of_lt earlier
  · exact Nat.le_of_eq same

theorem Ahead.span_ne {before behind : Node} (ahead : Ahead before behind) :
    before.span ≠ behind.span := by
  intro same
  unfold Ahead at ahead
  rw [same] at ahead
  omega

/-- Everything below a node that nests lies inside of it, and the walk goes ahead. -/
theorem walk_nested {node : Node} (nests : ∀ inner ∈ node.walk, inner.Nests)
    (nonempty : ∀ inner ∈ node.walk, inner.span.start < inner.span.stop) :
    (∀ inner ∈ node.walk,
      node.span.start ≤ inner.span.start ∧ inner.span.stop ≤ node.span.stop) ∧
    node.walk.Pairwise Ahead := by
  induction node using inductionOn with
  | step node induction =>
      rw [walk_eq] at nests nonempty ⊢
      obtain ⟨⟨inside, smaller, ordered⟩, nests⟩ := List.forall_mem_cons.mp nests
      obtain ⟨_, nonempty⟩ := List.forall_mem_cons.mp nonempty
      have below : ∀ child ∈ node.children, ∀ inner ∈ child.walk,
          inner ∈ node.children.flatMap walk := fun child isChild inner isInner =>
        List.mem_flatMap.mpr ⟨child, isChild, isInner⟩
      have parts (child : Node) (isChild : child ∈ node.children) :=
        induction child isChild
          (fun inner isInner => nests inner (below child isChild inner isInner))
          (fun inner isInner => nonempty inner (below child isChild inner isInner))
      refine ⟨?_, List.pairwise_cons.mpr ⟨?_, List.pairwise_flatMap.mpr ⟨?_, ?_⟩⟩⟩
      · refine List.forall_mem_cons.mpr ⟨⟨Nat.le_refl _, Nat.le_refl _⟩, fun inner isInner => ?_⟩
        obtain ⟨child, isChild, inChild⟩ := List.mem_flatMap.mp isInner
        obtain ⟨start, stop⟩ := inside child isChild
        obtain ⟨innerStart, innerStop⟩ := (parts child isChild).1 inner inChild
        exact ⟨Nat.le_trans start innerStart, Nat.le_trans innerStop stop⟩
      · intro inner isInner
        obtain ⟨child, isChild, inChild⟩ := List.mem_flatMap.mp isInner
        obtain ⟨start, stop⟩ := inside child isChild
        obtain ⟨innerStart, innerStop⟩ := (parts child isChild).1 inner inChild
        have shorter := smaller child isChild
        unfold Ahead
        omega
      · exact fun child isChild => (parts child isChild).2
      · -- What stands below one child ends before anything below a later one starts.
        refine ordered.imp_of_mem fun isBefore isBehind gap inner isInner other isOther => ?_
        obtain ⟨_, stop⟩ := (parts _ isBefore).1 inner isInner
        obtain ⟨start, _⟩ := (parts _ isBehind).1 other isOther
        have innerNonempty := nonempty inner (below _ isBefore inner isInner)
        exact .inl (by omega)

end Node

end ConfigGraph.Expr
