import ConfigGraph.Proofs.Document
import ConfigGraph.Proofs.Evaluation.Safe

/-!
# Evaluation of closed stores

A store is closed if all its documents were read and every import in them leads to a document of the
store.  Evaluation only ever meets expressions that stand in documents of the store, and only
carries functions whose bodies stand in the documents that they carry.  So in a closed store
evaluation is safe, whatever the depth: an error that is expected is located at a node of one of the
documents, unless a document needs itself.
-/

namespace ConfigGraph

/-- All documents of a store were read, and all their imports lead to documents of the store. -/
structure Store.Closed (store : Store) : Prop where
  parsed : ∀ document ∈ store.documents,
    parseDocument document.source document.format = .ok document.content
  resolved : ∀ document ∈ store.documents, ∀ site ∈ document.content.imports, ∃ target,
    store.target? ⟨document.path, some site.span⟩ = some target ∧ store.contains target = true

namespace Evaluation

variable {documents : List Document}

/-! ## Failures -/

/-- A span of a node in the tree of one of the documents, which has a given source. -/
structure NodeSpan (documents : List Document) (source : Source) (span : Span) : Prop where
  node : ∃ document ∈ documents, ∃ tree, document.source = source ∧
    document.content = .expr tree ∧ ∃ node ∈ tree.nodes, node.span = span
  inside : span.Inside source.text

/-- An error is located at a node of one of the documents.  The error of a document that needs
itself names the document only. -/
inductive Located (documents : List Document) : LoadError → Prop where
  | recursion {error : LoadError} :
      error.code = .infiniteRecursion →
      error.range = none →
      Located documents error
  | node {error : LoadError} {source : Source} {span : Span} :
      NodeSpan documents source span →
      error.path = some source.path →
      error.range = some (span.rangeIn source.text) →
      Located documents error

/-- The failures of evaluations that go as they should, but for two: a difference of values that are
no numbers, and a number that grows too large, are not reported as load errors. -/
inductive Expected (documents : List Document) : Failure → Prop where
  | error {error : LoadError} :
      error.kind = .evaluation →
      error.code.missing? error.details = none →
      Located documents error →
      Expected documents (.error error)
  | unending : Expected documents (.fault .unending)
  | overflow {overflow : Number.Overflow} : Expected documents (.fault (.overflow overflow))
  | difference : Expected documents (.fault (.operatorWithoutSymbol .subtract))

/-- The values that a session remembers are rooted. -/
def Remembers (documents : List Document) (session : Session) : Prop :=
  ∀ entry ∈ session.values, entry.2.Rooted documents

/-- What holds of evaluations among some documents: the values that are remembered are rooted, and
errors are located. -/
def Contract.among (documents : List Document) : Contract :=
  ⟨Remembers documents, Expected documents⟩

/-- A safe part never meets an internal fault. -/
theorem Safe.not_internal {α : Type} {good : α → Prop} {part : Evaluation α}
    (safe : Safe (.among documents) part good) {session : Session}
    (remembers : Remembers documents session) (fault : InternalFault) :
    (perform part session).1 ≠ .error (.fault (.internal fault)) := by
  intro failed
  cases safe.expected remembers failed

/-- The failure at a span inside of a text is a load error. -/
theorem failureAt_of_inside {source : Source} {span : Span} (inside : span.Inside source.text)
    (code : ErrorCode) (details : Details) :
    failureAt source span code details =
      .error ⟨.evaluation, code, some source.path, some (span.rangeIn source.text), details⟩ := by
  unfold failureAt
  rw [rangeOfSpan?_of_inside inside]

theorem NodeSpan.admits {source : Source} {span : Span} (place : NodeSpan documents source span) :
    (Contract.among documents).Admits source span := by
  intro code details _ complete
  rw [failureAt_of_inside place.inside]
  exact .error rfl complete (.node place rfl rfl)

end Evaluation

/-! ## Closed stores -/

namespace Store

variable {store : Store}

theorem exists_find? {path : Text} (known : store.contains path = true) :
    ∃ document ∈ store.documents, store.find? path = some document := by
  obtain ⟨document, member, same⟩ := List.any_eq_true.mp known
  cases found : store.find? path with
  | some other => exact ⟨other, List.mem_of_find?_eq_some found, rfl⟩
  | none =>
      have different := List.find?_eq_none.mp found document member
      simp only [beq_iff_eq] at same
      simp [same] at different

theorem Closed.nodeSpan (closed : store.Closed) {source : Source} {expr : Expr}
    (standsIn : StandsIn store.documents source expr) {node : Expr.Node}
    (member : node ∈ expr.nodes) : Evaluation.NodeSpan store.documents source node.span := by
  obtain ⟨document, isDocument, tree, rfl, isTree, within⟩ := standsIn
  have parsed := closed.parsed document isDocument
  rw [isTree] at parsed
  have listed := within.nodes_subset member
  exact ⟨⟨document, isDocument, tree, rfl, isTree, node, listed, rfl⟩,
    nodes_inside_of_parseDocument parsed listed⟩

theorem Closed.covers (closed : store.Closed) :
    (Evaluation.Contract.among store.documents).Covers store.documents where
  node standsIn member := (closed.nodeSpan standsIn member).admits
  unending := .unending
  overflow _ := .overflow
  difference := .difference

theorem Closed.resolved_import (closed : store.Closed) {source : Source} {span : Span} {path : Text}
    (standsIn : StandsIn store.documents source (.importOf span path)) : ∃ target,
    store.target ⟨source.path, some span⟩ = .ok target ∧ store.contains target = true := by
  obtain ⟨document, isDocument, tree, rfl, isTree, within⟩ := standsIn
  have isSite : ⟨span, path⟩ ∈ document.content.imports := by
    rw [isTree]
    exact within.mem_imports
  obtain ⟨target, isTarget, known⟩ := closed.resolved document isDocument _ isSite
  refine ⟨target, ?_, known⟩
  rw [Store.target, show document.source.path = document.path from rfl, isTarget]

/-- There are no functions in documents that are data. -/
theorem Closed.rooted_data (closed : store.Closed) {document : Document}
    (isDocument : document ∈ store.documents) {value : Value}
    (isData : document.content = .data value) {others : List Document} : value.Rooted others := by
  have parsed := closed.parsed document isDocument
  rw [isData] at parsed
  exact rooted_of_parseDocument parsed

end Store

namespace Evaluation

variable {store : Store}

/-- A document of a closed store is evaluated safely if expressions are. -/
theorem safe_ofDocument (closed : store.Closed)
    {evaluate : Document → Expr → Evaluation Value}
    (inner : ∀ document ∈ store.documents, ∀ tree, document.content = .expr tree →
      Safe (.among store.documents) (evaluate document tree) (·.Rooted store.documents))
    {path : Text} (known : store.contains path = true) :
    Safe (.among store.documents) (ofDocument store evaluate path)
      (·.Rooted store.documents) := by
  intro session remembers
  obtain ⟨found, isFound, same⟩ := Store.exists_find? known
  refine safeResult_ofDocument remembers (fun value remembered => ?_) (fun missing => ?_)
    (fun _ => .error rfl rfl (.recursion rfl rfl)) fun document isDocument _ => ?_
  · obtain ⟨entry, isEntry, rfl⟩ := Option.map_eq_some_iff.mp remembered
    exact remembers entry (List.mem_of_find?_eq_some isEntry)
  · rw [missing] at same
    cases same
  · have member := List.mem_of_find?_eq_some isDocument
    have content : Safe (.among store.documents) (ofContent (evaluate document) document.content)
        (·.Rooted store.documents) := by
      cases isContent : document.content with
      | expr tree => exact inner document member tree isContent
      | data value => exact .pure (closed.rooted_data member isContent)
    exact safeResult_within (content (session.enter path) remembers) (fun _ rooted => rooted)
      (fun _ expected => expected) (fun _ known => known)
      fun value after rooted known => List.forall_mem_cons.mpr ⟨rooted, known⟩

/-- In a closed store every expression that stands in a document is evaluated safely. -/
theorem safe_ofExpr (closed : store.Closed) (depth : Nat) :
    SafeInside (.among store.documents) store.documents (ofExpr depth store) := by
  induction depth with
  | zero => exact fun _ _ => .throw .unending
  | succ depth induction =>
      intro site source scope expr standsIn scopeRooted
      rw [ofExpr_succ]
      refine safe_level closed.covers induction (fun standsIn => ?_) standsIn scopeRooted
      obtain ⟨target, isTarget, known⟩ := closed.resolved_import standsIn
      rw [isTarget]
      refine safe_ofDocument closed (fun document isDocument tree isTree => ?_) known
      exact induction ⟨document, isDocument, tree, rfl, isTree, .refl⟩ (List.forall_mem_nil _)

/-- In a closed store every document is evaluated safely. -/
theorem safe_ofPath (closed : store.Closed) (depth : Nat) {path : Text}
    (known : store.contains path = true) :
    Safe (.among store.documents) (ofPath depth store path) (·.Rooted store.documents) := by
  refine safe_ofDocument closed (fun document isDocument tree isTree => ?_) known
  exact safe_ofExpr closed depth ⟨document, isDocument, tree, rfl, isTree, .refl⟩
    (List.forall_mem_nil _)

/-- An evaluation that asks for a path without a document changes no session. -/
theorem perform_ofPath_of_unknown {depth : Nat} {path : Text}
    (unknown : store.contains path = false) (session : Session) :
    (perform (ofPath depth store path) session).2 = session := by
  have notFound : store.find? path = none := by
    rw [Store.find?, List.find?_eq_none]
    intro document member same
    have known : store.contains path = true :=
      List.any_eq_true.mpr ⟨document, member, by simpa using same⟩
    rw [unknown] at known
    cases known
  unfold ofPath ofDocument
  rw [perform_bind, perform_get]
  dsimp only
  cases session.value? path with
  | some value => rfl
  | none =>
      rw [notFound]
      rfl

/-- An evaluation keeps the values that are remembered rooted. -/
theorem remembers_ofPath (closed : store.Closed) (depth : Nat) (path : Text) {session : Session}
    (remembers : Remembers store.documents session) :
    Remembers store.documents (perform (ofPath depth store path) session).2 := by
  cases known : store.contains path with
  | true => exact (safe_ofPath closed depth known).session remembers
  | false =>
      rw [perform_ofPath_of_unknown known]
      exact remembers

end Evaluation

end ConfigGraph
