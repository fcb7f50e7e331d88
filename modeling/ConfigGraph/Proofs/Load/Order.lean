import ConfigGraph.Proofs.Load.Agenda
import ConfigGraph.Proofs.Load.Taxonomy
import Mathlib.Data.Finset.Card
import Mathlib.Data.Prod.Lex

/-!
# The order of visits

The crawl of a load visits the path that came up last.  With documents in memory it could as well
visit any other one: a crawl ends in whatever order it visits paths, it succeeds in all orders or in
none, and the load of the entry has one result.
-/

namespace ConfigGraph.Load

variable {σ : Type}

/-! ## Every order ends -/

/-- Resolving imports stores no documents. -/
theorem resolveImports_documents (host : Host σ) (owner : Text) (cursor : Cursor)
    (sites : List Expr.ImportSite) (before : LoadState σ) :
    (perform (resolveImports host owner cursor sites) before).2.store.documents =
      before.store.documents := by
  induction sites generalizing cursor before with
  | nil => rfl
  | cons site sites induction =>
      unfold resolveImports
      rcases cursor.range? (some site.span) with ⟨_ | range, next⟩
      · rfl
      · have resolved : (perform (resolveImport host owner range site) before).2.store.documents =
            before.store.documents := by
          unfold resolveImport
          cases site.path.isEncodable with
          | false => rfl
          | true =>
              simp only [Bool.not_true, Bool.false_eq_true, if_false, resolvePath, perform_bind,
                perform_pure, perform_ask]
              cases (host.resolve ⟨site.path, range, some owner⟩ before.host).reply <;> rfl
        dsimp only
        rw [perform_bind]
        rcases performed : perform (resolveImport host owner range site) before with
          ⟨_ | target, middle⟩
        · rw [performed] at resolved
          exact resolved
        · rw [performed] at resolved
          dsimp only
          rw [perform_bind, perform_get]
          dsimp only
          rw [perform_bind]
          have others := induction next middle
          rcases goesOn : perform (resolveImports host owner next sites) middle with
            ⟨_ | targets, last⟩ <;>
          · rw [goesOn] at others
            exact others.trans resolved

/-- A visit to a path that is not stored stores the document that was given for it. -/
theorem visit_memory_new {documents : List (Text × Text)} {path : Text} {discovered : List Text}
    {before after : LoadState Unit} (new : before.store.contains path = false)
    (performed : perform (visit (.memory documents) path) before = (.ok discovered, after)) :
    path ∈ documents.map Prod.fst ∧ ∃ document : Document, document.path = path ∧
      after.store.documents = before.store.documents ++ [document] := by
  rw [visit_of_new _ new, perform_bind] at performed
  obtain ⟨log, ⟨text, content, reply, _, read⟩ | ⟨failure, _, read⟩⟩ :=
    perform_readDocument (.memory documents) new
  · rw [read] at performed
    constructor
    · simp only [Host.memory] at reply
      split at reply
      case h_1 document found =>
        have isPath : document.1 = path := by simpa using List.find?_some found
        rw [← isPath]
        exact List.mem_map_of_mem (List.mem_of_find?_eq_some found)
      case h_2 => cases reply
    · refine ⟨newDocument before.store path text content, rfl, ?_⟩
      dsimp only at performed
      have same := congrArg (fun outcome => outcome.2.store.documents) performed
      dsimp only at same
      rw [← same, resolveImports_documents]
  · rw [read] at performed
    cases performed

/-- The paths of given documents that are not stored. -/
def unread (documents : List (Text × Text)) (store : Store) : Finset Text :=
  (documents.map Prod.fst).toFinset.filter fun path => store.contains path = false

/-- What becomes less with each visit: the documents that are not stored, or else the agenda. -/
def remaining (documents : List (Text × Text)) (agenda : Agenda Unit) : Nat ×ₗ Nat :=
  toLex ((unread documents agenda.state.store).card, agenda.pending.card)

theorem unread_card_lt {documents : List (Text × Text)} {before after : Store} {path : Text}
    (given : path ∈ documents.map Prod.fst) (new : before.contains path = false)
    (stored : after.contains path = true)
    (keeps : ∀ other, before.contains other = true → after.contains other = true) :
    (unread documents after).card < (unread documents before).card := by
  apply Finset.card_lt_card
  rw [Finset.ssubset_iff_of_subset]
  · refine ⟨path, ?_, ?_⟩
    · exact Finset.mem_filter.mpr ⟨List.mem_toFinset.mpr given, new⟩
    · intro isUnread
      rw [(Finset.mem_filter.mp isUnread).2] at stored
      cases stored
  · intro other isUnread
    obtain ⟨isGiven, notStored⟩ := Finset.mem_filter.mp isUnread
    refine Finset.mem_filter.mpr ⟨isGiven, ?_⟩
    cases known : before.contains other with
    | false => rfl
    | true =>
        rw [keeps other known] at notStored
        cases notStored

theorem remaining_lt {documents : List (Text × Text)} {agenda next : Agenda Unit}
    (visits : Visits (.memory documents) agenda next) :
    remaining documents next < remaining documents agenda := by
  cases visits with
  | @pick path rest discovered before after performed =>
      unfold remaining
      rw [Prod.Lex.toLex_lt_toLex]
      cases known : before.store.contains path with
      | true =>
          rw [visit_of_contains _ known] at performed
          cases performed
          refine .inr ⟨rfl, ?_⟩
          simp
      | false =>
          obtain ⟨given, document, isPath, stored⟩ := visit_memory_new known performed
          refine .inl (unread_card_lt given known ?_ ?_)
          · simp [Store.contains, stored, isPath]
          · intro other isStored
            unfold Store.contains at isStored ⊢
            rw [stored, List.any_append, isStored, Bool.true_or]

/-- No crawl of documents in memory goes on for ever. -/
theorem visits_wellFounded (documents : List (Text × Text)) :
    WellFounded fun later earlier => Visits (.memory documents) earlier later :=
  Subrelation.wf remaining_lt (InvImage.wf (remaining documents) wellFounded_lt)

/-! ## The last path first -/

/-- The crawl of a load is one in some order, if its bound suffices. -/
theorem visitAll_crawls (documents : List (Text × Text)) (agenda : Agenda Unit) :
    ∀ paths : List Text, agenda.pending = paths → ∃ bound result last after,
      (∀ larger, bound ≤ larger →
        perform (visitAll (.memory documents) larger paths) agenda.state = (result, after)) ∧
      Relation.ReflTransGen (Visits (.memory documents)) agenda last ∧
      Ends (.memory documents) last result after := by
  induction agenda using (visits_wellFounded documents).induction with
  | _ agenda induction =>
      obtain ⟨pending, state⟩ := agenda
      rintro (_ | ⟨path, paths⟩) rfl
      · refine ⟨0, .ok ⟨⟩, _, state, fun larger _ => ?_, .refl, .done⟩
        cases larger <;> rfl
      · rcases performed : perform (visit (.memory documents) path) state with
          ⟨failure | discovered, middle⟩
        · refine ⟨1, .error failure, ⟨path ::ₘ paths, state⟩, middle, fun larger atLeast => ?_,
            .refl, .failed performed⟩
          obtain ⟨bound, rfl⟩ := Nat.exists_eq_add_of_le' atLeast
          unfold visitAll
          rw [perform_bind, performed]
        · have first : Visits (.memory documents) ⟨path ::ₘ paths, state⟩
              ⟨discovered + paths, middle⟩ := .pick performed
          have same : (discovered + paths : Multiset Text) =
              (discovered.reverse ++ paths : List Text) := by
            rw [← Multiset.coe_add, Multiset.coe_reverse]
          obtain ⟨bound, result, last, after, goesOn, run, ends⟩ :=
            induction _ first (discovered.reverse ++ paths) same
          refine ⟨bound + 1, result, last, after, fun larger atLeast => ?_, .head first run, ends⟩
          obtain ⟨others, rfl⟩ := Nat.exists_eq_add_of_le' atLeast
          rw [show others + (bound + 1) = others + bound + 1 from rfl]
          unfold visitAll
          rw [perform_bind, performed]
          exact goesOn _ (Nat.le_add_left bound others)

/-- A crawl of documents in memory comes to the same whatever its bound is, if that suffices, and is
one of the crawls in any order. -/
theorem crawl_crawlsTo (documents : List (Text × Text)) (entry : Text) :
    ∃ bound result last after,
      (∀ larger, bound ≤ larger →
        perform (crawl larger (.memory documents) entry) (.start ()) = (result, last)) ∧
      CrawlsTo (.memory documents) entry () result after ∧ after.store = last.store := by
  obtain ⟨bound, result, last, after, crawled, run, ends⟩ :=
    visitAll_crawls documents (.start entry ()) [entry] (Multiset.coe_singleton entry).symm
  have crawls : CrawlsTo (.memory documents) entry () result after := ⟨last, run, ends⟩
  cases result with
  | error failure =>
      refine ⟨bound, .error failure, after, after, fun larger atLeast => ?_, crawls, rfl⟩
      unfold crawl
      rw [perform_bind, show perform (visitAll (.memory documents) larger [entry]) (.start ()) = _
        from crawled larger atLeast]
  | ok value =>
      refine ⟨bound, .ok value,
        { after with log := after.log ++ [.crawled entry after.store.size] }, after,
        fun larger atLeast => ?_, crawls, rfl⟩
      unfold crawl
      rw [perform_bind, show perform (visitAll (.memory documents) larger [entry]) (.start ()) = _
        from crawled larger atLeast]
      rfl

/-! ## The theorem -/

/-- Documents in memory can be visited in any order.

A crawl goes on until it ends, and cannot go on for ever.  The crawl of a load, with a bound that
suffices, is one of them.  If it succeeds then so does each, with the same documents up to their
order and numbers and with the same import table, and the load gives what evaluation of the entry
in the store of any of them gives.  If it fails then so does each. -/
theorem crawl_any_order (documents : List (Text × Text)) (entry : Text) :
    (WellFounded fun later earlier => Visits (.memory documents) earlier later) ∧
    (∀ agenda : Agenda Unit, (∃ next, Visits (.memory documents) agenda next) ∨
      ∃ result after, Ends (.memory documents) agenda result after) ∧
    ∃ bound result last,
      (∀ larger, bound ≤ larger →
        perform (crawl larger (.memory documents) entry) (.start ()) = (result, last)) ∧
      (∃ after, CrawlsTo (.memory documents) entry () result after ∧ after.store = last.store) ∧
      (result = .ok ⟨⟩ → ∀ other otherLast,
        CrawlsTo (.memory documents) entry () other otherLast →
          other = .ok ⟨⟩ ∧ last.store.Alike otherLast.store ∧
          ∀ larger depth, bound ≤ larger →
            (perform (load ⟨larger, depth⟩ (.memory documents) entry) (.start ())).1 =
              resultOf ⟨larger, depth⟩ entry (other, otherLast)) ∧
      ∀ failure, result = .error failure → ∀ other otherLast,
        CrawlsTo (.memory documents) entry () other otherLast →
          ∃ otherFailure, other = .error otherFailure := by
  obtain ⟨bound, result, last, after, crawled, crawls, sameStore⟩ :=
    crawl_crawlsTo documents entry
  refine ⟨visits_wellFounded documents, visits_or_ends _, bound, result, last, crawled,
    ⟨after, crawls, sameStore⟩, ?_, ?_⟩
  · rintro rfl other otherLast otherCrawls
    obtain ⟨rfl, alike, distinct, otherDistinct⟩ := crawls.agree otherCrawls
    rw [sameStore] at alike distinct
    refine ⟨rfl, alike, fun larger depth atLeast => ?_⟩
    rw [perform_load, crawled larger atLeast]
    unfold resultOf
    dsimp only
    rw [Evaluation.ofPath_congr alike distinct otherDistinct]
  · rintro failure rfl other otherLast otherCrawls
    cases other with
    | error otherFailure => exact ⟨otherFailure, rfl⟩
    | ok value => cases (otherCrawls.agree crawls).1

end ConfigGraph.Load
