import ConfigGraph.Proofs.Nodes
import ConfigGraph.Proofs.Value.Parametric
import ConfigGraph.Store

/-!
# Where the code of functions stands

A function carries the source of the document that its body stands in.  `Value.Rooted` says that
this is so for all functions in a value, also for those in the scopes of others, and the operators
keep it.  Keys of records are left out, because no operation makes a value of a key.
-/

namespace ConfigGraph

/-- The value that a link leads to outside of its knot. -/
def Link.value? {α : Type} : Link α → Option α
  | .value outside => some outside
  | .node _ => none

/-- An expression stands in one of the documents, which has a given source. -/
def StandsIn (documents : List Document) (source : Source) (expr : Expr) : Prop :=
  ∃ document ∈ documents, ∃ tree,
    document.source = source ∧ document.content = .expr tree ∧ expr.Within tree

theorem StandsIn.mono {documents others : List Document} (subset : documents ⊆ others)
    {source : Source} {expr : Expr} (standsIn : StandsIn documents source expr) :
    StandsIn others source expr := by
  obtain ⟨document, member, rest⟩ := standsIn
  exact ⟨document, subset member, rest⟩

theorem StandsIn.part {documents : List Document} {source : Source} {whole : Expr}
    (standsIn : StandsIn documents source whole) {part : Expr} (isPart : part.Part whole) :
    StandsIn documents source part := by
  obtain ⟨document, member, tree, isSource, isTree, within⟩ := standsIn
  exact ⟨document, member, tree, isSource, isTree, .head isPart within⟩

namespace Value

/-- The values directly in a value.  For a knot they are those that its nodes have outside of it. -/
def members : Value → List Value
  | array items | tuple items | set items => items
  | record fields => fields.map (·.2)
  | function _ _ _ scope _ => scope.map (·.2)
  | knot _ nodes _ => nodes.flatMap fun layer => layer.members.filterMap Link.value?
  | _ => []

/-- The source and the body of a function. -/
def code? : Value → Option (Source × Expr)
  | function _ _ body _ source => some (source, body)
  | _ => none

/-- The bodies of all functions in a value stand in the documents that they carry. -/
inductive Rooted (documents : List Document) : Value → Prop where
  | intro {value : Value} :
      (∀ source body, value.code? = some (source, body) → StandsIn documents source body) →
      (∀ member ∈ value.members, Rooted documents member) →
      Rooted documents value

variable {documents : List Document}

theorem Rooted.member {value member : Value} (rooted : value.Rooted documents)
    (isMember : member ∈ value.members) : member.Rooted documents := by
  cases rooted with
  | intro _ members => exact members member isMember

theorem Rooted.code {value : Value} (rooted : value.Rooted documents) {source : Source}
    {body : Expr} (isCode : value.code? = some (source, body)) :
    StandsIn documents source body := by
  cases rooted with
  | intro code _ => exact code source body isCode

/-- Rooted values stay rooted when documents are added. -/
theorem Rooted.mono {others : List Document} (subset : documents ⊆ others) {value : Value}
    (rooted : value.Rooted documents) : value.Rooted others := by
  induction rooted with
  | intro code _ induction =>
      exact .intro (fun source body isCode => (code source body isCode).mono subset) induction

theorem rooted_of_members {value : Value} (noCode : value.code? = none)
    (members : ∀ member ∈ value.members, member.Rooted documents) : value.Rooted documents := by
  refine .intro (fun source body isCode => ?_) members
  rw [noCode] at isCode
  cases isCode

theorem rooted_of_plain {value : Value} (noCode : value.code? = none)
    (noMembers : value.members = []) : value.Rooted documents := by
  apply rooted_of_members noCode
  rw [noMembers]
  exact List.forall_mem_nil _

theorem rooted_array {items : List Value} :
    (array items).Rooted documents ↔ ∀ item ∈ items, item.Rooted documents := by
  constructor
  · intro rooted item isItem
    exact rooted.member isItem
  · intro itemsRooted
    exact rooted_of_members rfl itemsRooted

theorem rooted_record {fields : Fields} :
    (record fields).Rooted documents ↔ ∀ field ∈ fields, field.2.Rooted documents := by
  constructor
  · intro rooted field member
    exact rooted.member (List.mem_map_of_mem member)
  · intro fieldsRooted
    apply rooted_of_members rfl
    intro member isMember
    obtain ⟨field, isField, rfl⟩ := List.mem_map.mp isMember
    exact fieldsRooted field isField

theorem rooted_function {origin : Origin} {parameters : List Text} {body : Expr} {scope : Scope}
    {source : Source} :
    (function origin parameters body scope source).Rooted documents ↔
      StandsIn documents source body ∧ ∀ binding ∈ scope, binding.2.Rooted documents := by
  constructor
  · intro rooted
    exact ⟨rooted.code rfl, fun binding isBinding =>
      rooted.member (List.mem_map_of_mem isBinding)⟩
  · rintro ⟨standsIn, scopeRooted⟩
    refine .intro (fun otherSource otherBody isCode => ?_) fun member isMember => ?_
    · cases isCode
      exact standsIn
    · obtain ⟨binding, isBinding, rfl⟩ := List.mem_map.mp isMember
      exact scopeRooted binding isBinding

theorem rooted_ofNumber (origin : Origin) (number : Number) :
    (ofNumber origin number).Rooted documents := by
  cases number with
  | int value => exact rooted_of_plain rfl rfl
  | float value =>
      by_cases isNaN : Binary64.isNaN value
      · rw [ofNumber, if_pos isNaN]
        exact rooted_of_plain rfl rfl
      · rw [ofNumber, if_neg isNaN]
        exact rooted_of_plain rfl rfl

/-! ## Layers -/

theorem mem_members_map {α β : Type} {transform : α → β} {layer : Layer Value α} {image : β}
    (member : image ∈ (layer.map transform).members) :
    ∃ original ∈ layer.members, transform original = image := by
  cases layer with
  | array items | tuple items | set items => exact List.mem_map.mp member
  | record fields =>
      simp only [Layer.map, Layer.members, List.map_map] at member ⊢
      obtain ⟨field, isField, rfl⟩ := List.mem_map.mp member
      exact ⟨field.2, List.mem_map_of_mem isField, rfl⟩

/-- Every member of the top level is a member of the value, or another node of its knot. -/
theorem Rooted.of_layer? {value : Value} (rooted : value.Rooted documents)
    {layer : Layer Value Value} (isLayer : value.layer? = some layer) :
    ∀ member ∈ layer.members, member.Rooted documents := by
  intro member isMember
  cases value with
  | array items | tuple items | set items | record fields =>
      cases isLayer
      exact rooted.member isMember
  | knot owner nodes index =>
      simp only [layer?, Option.map_eq_some_iff] at isLayer
      obtain ⟨node, isNode, rfl⟩ := isLayer
      obtain ⟨link, isLink, rfl⟩ := mem_members_map isMember
      cases link with
      | value inner =>
          apply rooted.member
          refine List.mem_flatMap.mpr ⟨node, List.mem_of_getElem? isNode, ?_⟩
          exact List.mem_filterMap.mpr ⟨.value inner, isLink, rfl⟩
      -- Another node of the knot has the same members as this one.
      | node other => exact rooted_of_members rfl fun inner isInner => rooted.member isInner
  | null | bool | int | float | nan | text | bytes | date | dateTime | function | foreign =>
      cases isLayer

/-- The value of an operator has no functions but those of its operands. -/
theorem inherited_rooted : Inherited (Rooted documents) where
  layer? rooted isLayer := rooted.of_layer? isLayer
  ofNumber := rooted_ofNumber
  ofText _ := rooted_of_plain rfl rfl
  ofBool _ := rooted_of_plain rfl rfl
  array := rooted_array.mpr
  record := rooted_record.mpr

end Value

/-- All values of fields are rooted. -/
abbrev Fields.Rooted (documents : List Document) (fields : Fields) : Prop :=
  ∀ field ∈ fields, field.2.Rooted documents

end ConfigGraph
