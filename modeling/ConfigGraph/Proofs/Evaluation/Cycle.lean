import ConfigGraph.Proofs.Evaluation.Closed
import Mathlib.Logic.Relation

/-!
# Documents that need themselves

The imports of a store make a graph of paths.  While a document is evaluated only code runs that
stands in documents to which its imports lead, also where a function is called that another document
has handed over (`safe_ofExpr_reachable`).  So whatever is needed meanwhile is reached from each
document that is being evaluated, and a document that needs itself is on a cycle of imports.
-/

namespace ConfigGraph

open Relation

namespace Store

/-- An import of one document leads to another one. -/
def Imports (store : Store) (owner target : Text) : Prop :=
  ∃ document ∈ store.documents, document.path = owner ∧
    ∃ site ∈ document.content.imports, store.target? ⟨owner, some site.span⟩ = some target

open Classical in
/-- The documents to which imports lead from a path, in any number of steps. -/
noncomputable def reachable (store : Store) (path : Text) : List Document :=
  store.documents.filter fun document => ReflTransGen store.Imports path document.path

variable {store : Store} {path : Text}

theorem mem_reachable {document : Document} :
    document ∈ store.reachable path ↔
      document ∈ store.documents ∧ ReflTransGen store.Imports path document.path := by
  simp [reachable]

theorem reachable_subset_documents : store.reachable path ⊆ store.documents :=
  fun _ member => (mem_reachable.mp member).1

theorem reachable_subset {other : Text} (leads : ReflTransGen store.Imports path other) :
    store.reachable other ⊆ store.reachable path := by
  intro document member
  obtain ⟨stored, further⟩ := mem_reachable.mp member
  exact mem_reachable.mpr ⟨stored, leads.trans further⟩

/-- An import that stands in a document that is reached leads on. -/
theorem leads_of_standsIn {source : Source} {span : Span} {written target : Text}
    (standsIn : StandsIn (store.reachable path) source (.importOf span written))
    (isTarget : store.target? ⟨source.path, some span⟩ = some target) :
    TransGen store.Imports path target := by
  obtain ⟨document, member, tree, rfl, isTree, within⟩ := standsIn
  obtain ⟨stored, leads⟩ := mem_reachable.mp member
  refine .tail' leads ⟨document, stored, rfl, ⟨span, written⟩, ?_, isTarget⟩
  rw [isTree]
  exact within.mem_imports

/-- Imports that only lead from higher to lower ranks make no cycles. -/
theorem acyclic_of_rank (rank : Text → Nat)
    (descends : ∀ document ∈ store.documents, ∀ site ∈ document.content.imports,
      ∀ target ∈ store.target? ⟨document.path, some site.span⟩,
        rank target < rank document.path) (path : Text) :
    ¬TransGen store.Imports path path := by
  have lower : ∀ {owner target}, TransGen store.Imports owner target →
      rank target < rank owner := by
    intro owner target leads
    have step : ∀ {owner target}, store.Imports owner target → rank target < rank owner := by
      rintro _ target ⟨document, member, rfl, site, isSite, isTarget⟩
      exact descends document member site isSite target isTarget
    induction leads with
    | single imports => exact step imports
    | tail _ imports below => exact (step imports).trans below
  exact fun cyclic => lt_irrefl _ (lower cyclic)

/-- A document that is reached from a path and is on a cycle of imports. -/
structure ReachesCycle (store : Store) (path needed : Text) : Prop where
  reached : ReflTransGen store.Imports path needed
  cyclic : TransGen store.Imports needed needed

end Store

namespace Evaluation

variable {store : Store} {path : Text} {active : List Text}

/-- What holds while a document is evaluated and some are active: the values that are remembered
have code from the documents that theirs lead to, and a document that needs itself is on a cycle
that is reached from here. -/
def Contract.during (store : Store) (active : List Text) (path : Text) : Contract where
  session session := session.active = active ∧
    ∀ entry ∈ session.values, entry.2.Rooted (store.reachable entry.1)
  failure failure := ∀ error, failure = .error error → error.code = .infiniteRecursion →
    ∃ needed, error = recursionError needed ∧ store.ReachesCycle path needed

/-- Nothing is asked of faults. -/
theorem during_fault (fault : Fault) : (Contract.during store active path).failure (.fault fault) := by
  intro error same
  cases same

theorem covers_during (store : Store) (active : List Text) (path : Text)
    (documents : List Document) : (Contract.during store active path).Covers documents where
  node _ _ := by
    intro code details other _ error isError isRecursion
    unfold failureAt at isError
    split at isError
    · cases isError
      exact absurd isRecursion other
    · cases isError
  unending := during_fault _
  overflow _ := during_fault _
  difference := during_fault _

/-- A document that is reached is evaluated safely, if the expressions in it are while the document
is active, too.  The active documents lead to it, so that it is on a cycle if it is one of them. -/
theorem safe_ofDocument_during (closed : store.Closed)
    {evaluate : Document → Expr → Evaluation Value} {target : Text}
    (reached : ReflTransGen store.Imports path target)
    (leads : ∀ outer ∈ active, TransGen store.Imports outer target)
    (inner : ∀ document ∈ store.reachable target, ∀ tree, document.content = .expr tree →
      Safe (.during store (target :: active) target) (evaluate document tree)
        (·.Rooted (store.reachable target))) :
    Safe (.during store active path) (ofDocument store evaluate target)
      (·.Rooted (store.reachable path)) := by
  intro session known
  have subset := Store.reachable_subset reached
  refine safeResult_ofDocument known (fun value remembered => ?_) (fun _ => during_fault _)
    (fun isActive => ?_) fun document found inactive => ?_
  · obtain ⟨entry, isEntry, rfl⟩ := Option.map_eq_some_iff.mp remembered
    have samePath : entry.1 = target := by simpa using List.find?_some isEntry
    have rooted := known.2 entry (List.mem_of_find?_eq_some isEntry)
    rw [samePath] at rooted
    exact rooted.mono subset
  · rintro _ ⟨⟩ _
    rw [known.1] at isActive
    exact ⟨target, rfl, reached, leads target isActive⟩
  · have samePath : document.path = target := by simpa using List.find?_some found
    have stored := List.mem_of_find?_eq_some found
    have content : Safe (.during store (target :: active) target)
        (ofContent (evaluate document) document.content)
        (·.Rooted (store.reachable target)) := by
      cases isContent : document.content with
      | data value => exact .pure (closed.rooted_data stored isContent)
      | expr tree =>
          refine inner document (Store.mem_reachable.mpr ⟨stored, ?_⟩) tree isContent
          rw [samePath]
    have entered := content (session.enter target)
      ⟨congrArg (target :: ·) known.1, known.2⟩
    refine safeResult_within entered (fun _ rooted => rooted.mono subset)
      (fun failure expected error isError isRecursion => ?_) (fun after behind => ⟨?_, behind.2⟩)
      fun value after rooted behind => ⟨behind.1, List.forall_mem_cons.mpr ⟨rooted, behind.2⟩⟩
    · obtain ⟨needed, isNeeded, further⟩ := expected error isError isRecursion
      exact ⟨needed, isNeeded, reached.trans further.reached, further.cyclic⟩
    · -- The document was not active before, so that leaving it makes no other one inactive.
      rw [known.1] at inactive
      show after.active.filter _ = active
      rw [behind.1, List.filter_cons_of_neg (by simp), List.filter_eq_self]
      intro outer isOuter
      simp only [bne_iff_ne, ne_eq]
      rintro rfl
      exact inactive isOuter

/-- While a document is evaluated, code that stands in the documents to which it leads is evaluated
safely: no other code comes to be run, and each active document leads to whatever is needed. -/
theorem safe_ofExpr_reachable (closed : store.Closed) (depth : Nat)
    (leads : ∀ outer ∈ active, ReflTransGen store.Imports outer path) :
    SafeInside (.during store active path) (store.reachable path) (ofExpr depth store) := by
  -- An import makes its target active, with those that were active before as what leads to it.
  induction depth generalizing active path with
  | zero => exact fun _ _ => .throw (during_fault _)
  | succ depth induction =>
      intro site source scope expr standsIn scopeRooted
      rw [ofExpr_succ]
      refine safe_level (covers_during _ _ _ _) (induction leads) (fun standsIn => ?_) standsIn
        scopeRooted
      obtain ⟨target, isTarget, _⟩ :=
        closed.resolved_import (standsIn.mono Store.reachable_subset_documents)
      rw [isTarget]
      have further : TransGen store.Imports path target := by
        refine Store.leads_of_standsIn standsIn ?_
        unfold Store.target at isTarget
        split at isTarget
        case h_1 found =>
          cases isTarget
          exact found
        case h_2 => cases isTarget
      have leadsOn : ∀ outer ∈ active, TransGen store.Imports outer target :=
        fun outer isOuter => .trans_right (leads outer isOuter) further
      refine safe_ofDocument_during closed further.to_reflTransGen leadsOn
        fun document reached tree isTree => ?_
      refine induction (List.forall_mem_cons.mpr ⟨.refl, fun outer isOuter =>
        (leadsOn outer isOuter).to_reflTransGen⟩) ?_ (List.forall_mem_nil _)
      exact ⟨document, reached, tree, rfl, isTree, .refl⟩

/-- A document that needs itself in an evaluation of its own is reached, and on a cycle. -/
theorem reachesCycle_of_recursion (closed : store.Closed) {depth : Nat} {error : LoadError}
    (failed : ((ofPath depth store path).perform .start).1 = .error (.error error))
    (isRecursion : error.code = .infiniteRecursion) :
    ∃ needed, error = recursionError needed ∧ store.ReachesCycle path needed := by
  have safe : Safe (.during store [] path) (ofPath depth store path)
      (·.Rooted (store.reachable path)) := by
    refine safe_ofDocument_during closed .refl (List.forall_mem_nil _)
      fun document reached tree isTree => ?_
    exact safe_ofExpr_reachable closed depth (List.forall_mem_singleton.mpr .refl)
      ⟨document, reached, tree, rfl, isTree, .refl⟩ (List.forall_mem_nil _)
  exact safe.expected ⟨rfl, List.forall_mem_nil _⟩ failed error rfl isRecursion

end Evaluation

end ConfigGraph
