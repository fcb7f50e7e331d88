import ConfigGraph.Document
import Mathlib.Logic.Relation

/-!
# Parts of expressions

`Expr.Part` says which expressions stand directly in another one, and `Expr.Within` which stand in
it at any depth.  The nodes that `Expr.nodes` lists are those of all of them, so that the imports
that stand anywhere in a tree are those of `Expr.imports`.
-/

namespace ConfigGraph

namespace Expr

/-- Where a node stands. -/
def Node.span : Node → Span
  | .expr inner => inner.span
  | .field span _ _ => span

/-- An expression is the first of its nodes. -/
theorem mem_nodes_self (expr : Expr) : Node.expr expr ∈ expr.nodes := by
  cases expr <;> exact List.mem_cons_self

theorem itemNodes_eq_flatMap (items : List Expr) : itemNodes items = items.flatMap nodes := by
  induction items with
  | nil => rfl
  | cons item items induction => rw [itemNodes, induction, List.flatMap_cons]

theorem fieldNodes_eq_flatMap (fields : List (Span × Text × Expr)) :
    fieldNodes fields =
      fields.flatMap fun field => .field field.1 field.2.1 field.2.2 :: nodes field.2.2 := by
  induction fields with
  | nil => rfl
  | cons field fields induction =>
      rw [fieldNodes, induction, List.flatMap_cons, List.cons_append]

/-- One expression stands directly in another one. -/
inductive Part : Expr → Expr → Prop where
  | field {span : Span} {fields : List (Span × Text × Expr)} {field : Span × Text × Expr} :
      field ∈ fields → Part field.2.2 (.record span fields)
  | item {span : Span} {items : List Expr} {item : Expr} :
      item ∈ items → Part item (.array span items)
  | letValue {span : Span} {name : Text} {value body : Expr} :
      Part value (.letIn span name value body)
  | letBody {span : Span} {name : Text} {value body : Expr} :
      Part body (.letIn span name value body)
  | functionBody {span : Span} {parameters : List Text} {body : Expr} :
      Part body (.function span parameters body)
  | condition {span : Span} {condition thenBranch elseBranch : Expr} :
      Part condition (.conditional span condition thenBranch elseBranch)
  | thenBranch {span : Span} {condition thenBranch elseBranch : Expr} :
      Part thenBranch (.conditional span condition thenBranch elseBranch)
  | elseBranch {span : Span} {condition thenBranch elseBranch : Expr} :
      Part elseBranch (.conditional span condition thenBranch elseBranch)
  | left {span : Span} {operator : BinaryOperator} {left right : Expr} :
      Part left (.binary span operator left right)
  | right {span : Span} {operator : BinaryOperator} {left right : Expr} :
      Part right (.binary span operator left right)
  | operand {span : Span} {operator : UnaryOperator} {operand : Expr} :
      Part operand (.unary span operator operand)
  | target {span : Span} {target : Expr} {field : Text} : Part target (.access span target field)
  | callee {span : Span} {callee : Expr} {arguments : List Expr} :
      Part callee (.call span callee arguments)
  | argument {span : Span} {callee : Expr} {arguments : List Expr} {argument : Expr} :
      argument ∈ arguments → Part argument (.call span callee arguments)

/-- One expression stands in another one, or is it. -/
abbrev Within : Expr → Expr → Prop := Relation.ReflTransGen Part

theorem Part.nodes_subset {part whole : Expr} (isPart : Part part whole) :
    part.nodes ⊆ whole.nodes := by
  intro node member
  cases isPart with
  | field isField =>
      rw [nodes, fieldNodes_eq_flatMap]
      refine List.mem_cons_of_mem _ (List.mem_flatMap.mpr ⟨_, isField, ?_⟩)
      exact List.mem_cons_of_mem _ member
  | item isItem =>
      rw [nodes, itemNodes_eq_flatMap]
      exact List.mem_cons_of_mem _ (List.mem_flatMap.mpr ⟨_, isItem, member⟩)
  | argument isArgument =>
      rw [nodes, itemNodes_eq_flatMap]
      refine List.mem_cons_of_mem _ (List.mem_append_right _ ?_)
      exact List.mem_flatMap.mpr ⟨_, isArgument, member⟩
  | letValue | letBody | functionBody | condition | thenBranch | elseBranch | left | right | operand
  | target | callee => simp [nodes, member]

theorem Within.nodes_subset {inner tree : Expr} (within : inner.Within tree) :
    inner.nodes ⊆ tree.nodes := by
  induction within with
  | refl => exact List.Subset.refl _
  | tail _ isPart induction => exact List.Subset.trans induction isPart.nodes_subset

theorem Within.mem_nodes {inner tree : Expr} (within : inner.Within tree) :
    .expr inner ∈ tree.nodes :=
  within.nodes_subset inner.mem_nodes_self

/-- A part is smaller than the whole. -/
theorem Part.sizeOf_lt {part whole : Expr} (isPart : Part part whole) :
    sizeOf part < sizeOf whole := by
  cases isPart with
  | @field span fields field isField =>
      have smaller := List.sizeOf_lt_of_mem isField
      obtain ⟨fieldSpan, name, value⟩ := field
      simp only [Prod.mk.sizeOf_spec, record.sizeOf_spec] at smaller ⊢
      omega
  | item isItem =>
      have smaller := List.sizeOf_lt_of_mem isItem
      simp only [array.sizeOf_spec]
      omega
  | argument isArgument =>
      have smaller := List.sizeOf_lt_of_mem isArgument
      simp only [call.sizeOf_spec]
      omega
  | letValue | letBody | functionBody | condition | thenBranch | elseBranch | left | right | operand
  | target | callee => simp only [letIn.sizeOf_spec, function.sizeOf_spec,
      conditional.sizeOf_spec, binary.sizeOf_spec, unary.sizeOf_spec, access.sizeOf_spec,
      call.sizeOf_spec]; omega

/-- An expression among the nodes of a tree is the tree, or one of the nodes of a part. -/
theorem eq_or_part_of_mem_nodes {inner tree : Expr} (member : .expr inner ∈ tree.nodes) :
    inner = tree ∨ ∃ part, Part part tree ∧ .expr inner ∈ part.nodes := by
  cases tree with
  | number | string | boolean | null | identifier | importOf =>
      cases List.mem_singleton.mp member
      exact .inl rfl
  | record span fields =>
      rw [nodes, fieldNodes_eq_flatMap] at member
      rcases List.mem_cons.mp member with same | inside
      · exact .inl (Node.expr.inj same)
      · obtain ⟨field, isField, listed⟩ := List.mem_flatMap.mp inside
        rcases List.mem_cons.mp listed with same | inValue
        · cases same
        · exact .inr ⟨_, .field isField, inValue⟩
  | array span items =>
      rw [nodes, itemNodes_eq_flatMap] at member
      rcases List.mem_cons.mp member with same | inside
      · exact .inl (Node.expr.inj same)
      · obtain ⟨item, isItem, listed⟩ := List.mem_flatMap.mp inside
        exact .inr ⟨_, .item isItem, listed⟩
  | letIn =>
      simp only [nodes, List.mem_cons, List.mem_append, Node.expr.injEq] at member
      rcases member with same | inValue | inBody
      · exact .inl same
      · exact .inr ⟨_, .letValue, inValue⟩
      · exact .inr ⟨_, .letBody, inBody⟩
  | function =>
      simp only [nodes, List.mem_cons, Node.expr.injEq] at member
      exact member.imp_right fun inBody => ⟨_, .functionBody, inBody⟩
  | conditional =>
      simp only [nodes, List.mem_cons, List.mem_append, Node.expr.injEq] at member
      rcases member with same | (inCondition | inThen) | inElse
      · exact .inl same
      · exact .inr ⟨_, .condition, inCondition⟩
      · exact .inr ⟨_, .thenBranch, inThen⟩
      · exact .inr ⟨_, .elseBranch, inElse⟩
  | binary =>
      simp only [nodes, List.mem_cons, List.mem_append, Node.expr.injEq] at member
      rcases member with same | inLeft | inRight
      · exact .inl same
      · exact .inr ⟨_, .left, inLeft⟩
      · exact .inr ⟨_, .right, inRight⟩
  | unary =>
      simp only [nodes, List.mem_cons, Node.expr.injEq] at member
      exact member.imp_right fun inOperand => ⟨_, .operand, inOperand⟩
  | access =>
      simp only [nodes, List.mem_cons, Node.expr.injEq] at member
      exact member.imp_right fun inTarget => ⟨_, .target, inTarget⟩
  | call span callee arguments =>
      rw [nodes, itemNodes_eq_flatMap] at member
      simp only [List.mem_cons, List.mem_append, List.mem_flatMap, Node.expr.injEq] at member
      rcases member with same | inCallee | ⟨argument, isArgument, listed⟩
      · exact .inl same
      · exact .inr ⟨_, .callee, inCallee⟩
      · exact .inr ⟨_, .argument isArgument, listed⟩

/-- The expressions among the nodes of a tree stand in it. -/
theorem within_of_mem_nodes {inner tree : Expr} (member : .expr inner ∈ tree.nodes) :
    inner.Within tree := by
  induction size : sizeOf tree using Nat.strongRecOn generalizing tree with
  | _ size induction =>
      subst size
      rcases eq_or_part_of_mem_nodes member with rfl | ⟨part, isPart, inPart⟩
      · exact .refl
      · exact .tail (induction _ isPart.sizeOf_lt inPart rfl) isPart

/-- The span of a field is listed with the record that it stands in. -/
theorem Within.field_mem_nodes {span : Span} {fields : List (Span × Text × Expr)} {tree : Expr}
    (within : (record span fields).Within tree) {field : Span × Text × Expr}
    (member : field ∈ fields) : .field field.1 field.2.1 field.2.2 ∈ tree.nodes := by
  apply within.nodes_subset
  rw [nodes, fieldNodes_eq_flatMap]
  exact List.mem_cons_of_mem _ (List.mem_flatMap.mpr ⟨field, member, List.mem_cons_self⟩)

/-- Every import in a tree is listed. -/
theorem Within.mem_imports {span : Span} {path : Text} {tree : Expr}
    (within : (importOf span path).Within tree) : ⟨span, path⟩ ∈ tree.imports :=
  List.mem_filterMap.mpr ⟨_, within.mem_nodes, rfl⟩

/-- The imports that are listed are those in the tree. -/
theorem mem_imports_iff {span : Span} {path : Text} {tree : Expr} :
    ⟨span, path⟩ ∈ tree.imports ↔ (importOf span path).Within tree := by
  refine ⟨fun member => ?_, Within.mem_imports⟩
  obtain ⟨node, listed, isImport⟩ := List.mem_filterMap.mp member
  cases node with
  | field => cases isImport
  | expr expr =>
      cases expr <;> cases isImport
      exact within_of_mem_nodes listed

/-! ## Kinds of expressions that a tree has none of -/

/-- Nothing of a kind stands in an expression. -/
def Avoids (kind : Expr → Bool) (expr : Expr) : Prop := ∀ inner, inner.Within expr → ¬kind inner

theorem Avoids.part {kind : Expr → Bool} {part whole : Expr} (avoids : whole.Avoids kind)
    (isPart : part.Part whole) : part.Avoids kind :=
  fun inner within => avoids inner (within.tail isPart)

/-- The kind of a node, if it is an expression. -/
def Node.isOf (kind : Expr → Bool) : Node → Bool
  | .expr inner => kind inner
  | .field .. => false

/-- It is enough to look at the nodes. -/
theorem avoids_iff {kind : Expr → Bool} {expr : Expr} :
    expr.Avoids kind ↔ ∀ node ∈ expr.nodes, ¬node.isOf kind := by
  constructor
  · intro avoids node listed
    cases node with
    | expr inner => exact avoids inner (within_of_mem_nodes listed)
    | field => exact Bool.false_ne_true
  · intro noNode inner within
    exact noNode _ within.mem_nodes

instance (kind : Expr → Bool) (expr : Expr) : Decidable (expr.Avoids kind) :=
  decidable_of_iff _ avoids_iff.symm

def isCall : Expr → Bool
  | call .. => true
  | _ => false

def isComparison : Expr → Bool
  | binary _ .equal _ _ | binary _ .notEqual _ _ => true
  | _ => false

end Expr

/-- What has to hold of the tree of a document is decided there. -/
instance (content : Content) (holds : Expr → Prop) [DecidablePred holds] :
    Decidable (∀ tree, content = .expr tree → holds tree) :=
  match content with
  | .data _ => isTrue nofun
  | .expr tree => decidable_of_iff (holds tree)
      ⟨fun given _ same => Content.expr.inj same ▸ given, fun given => given tree rfl⟩

end ConfigGraph
