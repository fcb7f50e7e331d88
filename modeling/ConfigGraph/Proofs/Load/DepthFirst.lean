import ConfigGraph.Proofs.DepthFirst
import ConfigGraph.Proofs.Host.Memory
import ConfigGraph.Proofs.Load.Agreement

/-!
# The order of a crawl

A crawl keeps the paths that it has come upon in a list, some of them several times.  It leaves out
those that are stored already, both when they come up and when they are taken up.  With documents in
memory that is one way among others to work off the list, and all of them store the documents in
the order of a depth-first search from the entry, which follows the last import of each first.
-/

namespace ConfigGraph.Load

/-- Where the imports of a document in memory lead, the last one first. -/
def importsFromLast (documents : List (Text × Text)) (path : Text) : List Text :=
  match textAt? documents path with
  | none => []
  | some text =>
      match parseDocument ⟨path, text⟩ (.ofPath path) with
      | .error _ => []
      | .ok content =>
          (content.imports.map fun site =>
            Resolution.target ⟨site.path, site.span.rangeIn text, some path⟩).reverse

theorem Settlement.GivenBy.importsFromLast_eq {documents : List (Text × Text)}
    {settlement : Settlement} (given : settlement.GivenBy (.memory documents)) :
    importsFromLast documents settlement.path = settlement.targets.reverse := by
  have fetched := Host.answers_fetch_memory_iff.mp (given.answers _ List.mem_cons_self)
  have parsed := given.sound.content
  rw [given.sound.format] at parsed
  unfold importsFromLast
  cases found : textAt? documents settlement.path with
  | none =>
      rw [found] at fetched
      cases fetched
  | some text =>
      rw [found] at fetched
      cases fetched
      dsimp only
      rw [show parseDocument ⟨settlement.path, settlement.document.source.text⟩
        (.ofPath settlement.path) = _ from parsed]
      refine congrArg List.reverse (List.ext_getElem ?_ fun index inside isTarget => ?_)
      · rw [List.length_map]
        exact given.complete.symm
      · rw [List.length_map] at inside
        rw [List.getElem_map]
        have answers := given.target (List.getElem?_eq_getElem inside)
          (List.getElem?_eq_getElem isTarget)
        exact answers.target_memory.1.symm

/-! ## Visits as a worklist -/

theorem Unfolds.subset {settlements last : List Settlement} {paths : List Text}
    {tail : List Exchange} {result : Except Failure Unit}
    (unfolds : Unfolds settlements paths last tail result) : settlements ⊆ last := by
  induction unfolds with
  | done | unending => exact List.Subset.refl _
  | known _ _ induction => exact induction
  | visit _ _ _ induction => exact List.Subset.trans (List.subset_append_left _ _) induction
  | halt _ haltsAt =>
      cases haltsAt with
      | unread => exact List.Subset.refl _
      | inside => exact List.subset_append_left _ _

/-- Visits that come through work off their paths. -/
theorem Unfolds.works {next : Text → List Text} {settlements last : List Settlement}
    {paths : List Text} {tail : List Exchange} {result : Except Failure Unit}
    (unfolds : Unfolds settlements paths last tail result) (succeeded : result = .ok ⟨⟩)
    (follows : ∀ settlement ∈ last, next settlement.path = settlement.targets.reverse) :
    Works next (settlements.map Settlement.path) paths (last.map Settlement.path) := by
  induction unfolds with
  | done => exact .done
  | unending | halt => cases succeeded
  | @known _ _ path paths _ _ isKnown _ induction =>
      have rest := induction succeeded follows
      exact .drop (by rwa [List.append_nil]) rest
  | @visit settlements last settlement paths _ _ new _ unfolds induction =>
      have isLast := unfolds.subset (List.mem_append_right _ List.mem_cons_self)
      have rest := induction succeeded follows
      rw [← List.filter_reverse, List.map_append, List.map_singleton] at rest
      refine .visit new ?_
      rw [follows settlement isLast]
      refine rest.of_filter fun target _ isKnown => ?_
      rwa [decide_eq_true_iff, not_not] at isKnown

/-! ## A crawl -/

/-- A crawl of documents in memory that succeeds settles them by the replies of the host, and is a
way to work off a list that has the entry only. -/
theorem crawl_works {documents : List (Text × Text)} {bound : Nat} {entry : Text}
    {last : LoadState Unit}
    (crawled : perform (crawl bound (.memory documents) entry) (.start ()) = (.ok ⟨⟩, last)) :
    ∃ (settlements : List Settlement) (after : LoadState (Unit × List Exchange)),
      Settled [] settlements [] after ∧ last.store = after.store ∧
      after.host.2 = transcript bound (.memory documents) entry (.start ()) ∧
      Works (importsFromLast documents) [] [entry] (settlements.map Settlement.path) := by
  obtain ⟨settlements, tail, result, after, performed, settled, unfolds⟩ :=
    crawl_unfolds (.memory documents) (settled_start ()) bound entry
  have isTranscript : after.host.2 = transcript bound (.memory documents) entry (.start ()) := by
    unfold transcript transcribed
    exact congrArg (·.2.host.2) performed.symm
  rw [perform_crawl, show transcribed bound (.memory documents) entry (.start ()) = _
    from performed] at crawled
  cases crawled
  obtain ⟨more, rfl, _, ⟨_, rfl, grows⟩ | ⟨failure, failed, _⟩⟩ :=
    unfolds.grows_or_halts (List.forall_mem_nil _)
  · refine ⟨_, after, settled, rfl, isTranscript, unfolds.works rfl fun settlement member => ?_⟩
    have given : settlement.GivenBy (.memory documents) := by
      refine ⟨⟨settled.sound settlement member, fun exchange isExchange => ?_⟩,
        grows.complete settlement member⟩
      apply answers_of_mem_transcript
      rw [← isTranscript, settled.transcript_eq]
      exact List.mem_append_left _ (List.mem_flatMap.mpr ⟨settlement, member, isExchange⟩)
    exact given.importsFromLast_eq
  · cases failed

/-- A crawl of documents in memory goes depth first.

When it succeeds, the documents are stored in the order in which a depth-first search from the entry
visits them that follows the imports of each from the last to the first, and does not go on from a
document again.  Their numbers are those of this order, and their texts were fetched in it.  It is
also the order that comes of working off a list of paths in any other way, whichever paths are left
out of the list because they have been visited or come further in front, and whenever. -/
theorem crawl_depth_first {documents : List (Text × Text)} {bound : Nat} {entry : Text}
    {last : LoadState Unit}
    (crawled : perform (crawl bound (.memory documents) entry) (.start ()) = (.ok ⟨⟩, last)) :
    (∀ depth, last.store.size ≤ depth →
      last.store.documents.map Document.path =
        depthFirst (importsFromLast documents) depth [] entry) ∧
    (∀ (index : Nat) (document : Document), last.store.documents[index]? = some document →
      document.number = index) ∧
    (transcript bound (.memory documents) entry (.start ())).filterMap fetchedPath? =
      last.store.documents.map Document.path ∧
    ∀ order, Works (importsFromLast documents) [] [entry] order →
      order = last.store.documents.map Document.path := by
  obtain ⟨settlements, after, settled, sameStore, isTranscript, works⟩ := crawl_works crawled
  have paths : last.store.documents.map Document.path = settlements.map Settlement.path := by
    rw [sameStore, settled.documents, List.map_map]
    rfl
  have size : last.store.size = (settlements.map Settlement.path).length := by
    rw [← paths, List.length_map]
    rfl
  rw [paths]
  refine ⟨fun depth enough => ?_, ?_, ?_, fun order other => ?_⟩
  · rw [size] at enough
    exact (works.searches.foldl_depthFirst (by simpa using enough)).symm
  · rw [sameStore]
    exact settled.numbers
  · rw [← isTranscript, settled.transcript_eq, List.append_nil, filterMap_fetchedPath?_exchanges]
  · exact other.searches.unique works.searches

/-- A document that two others import, one of which imports the other and is imported by it. -/
def twiceImported : List (Text × Text) := [
  ("/a.cairn", "[import \"b.cairn\", import \"c.cairn\"]"),
  ("/b.cairn", "1"),
  ("/c.cairn", "[import \"b.cairn\", import \"a.cairn\"]")]

theorem crawl_depth_first_twiceImported :
    ∃ last, perform (crawl 5 (.memory twiceImported) "/a.cairn") (.start ()) = (.ok ⟨⟩, last) ∧
      last.store.documents.map Document.path = ["/a.cairn", "/c.cairn", "/b.cairn"] := by
  have crawled : (perform (crawl 5 (.memory twiceImported) "/a.cairn") (.start ())).1.isOk = true :=
    by decide +kernel
  have performed : perform (crawl 5 (.memory twiceImported) "/a.cairn") (.start ()) = (.ok ⟨⟩, _) :=
    Prod.ext (perform_of_isOk crawled) rfl
  have few : (perform (crawl 5 (.memory twiceImported) "/a.cairn") (.start ())).2.store.size ≤ 3 :=
    by decide +kernel
  have searched : depthFirst (importsFromLast twiceImported) 3 [] "/a.cairn" =
      ["/a.cairn", "/c.cairn", "/b.cairn"] := by
    decide +kernel
  exact ⟨_, performed, ((crawl_depth_first performed).1 3 few).trans searched⟩

end ConfigGraph.Load
