import ConfigGraph.Host.FileSystem
import ConfigGraph.Proofs.Load.Trace

/-!
# The entry of a crawl

A crawl reads its entry before all other documents, and only once.  So the imports of the entry that
are resolved come from one settlement, whatever the other documents are and however the crawl ends.
-/

namespace ConfigGraph

/-- The link that an exchange leaves: that of an import which is resolved. -/
def Exchange.link? : Exchange → Option ImportLink
  | ⟨.resolve resolution, .answer target⟩ => some ⟨resolution.base, target, resolution.range⟩
  | _ => none

/-- The links that exchanges leave for the imports of a document. -/
def linksFrom (owner : Text) (exchanges : List Exchange) : List ImportLink :=
  (exchanges.filterMap Exchange.link?).filter fun link => link.source == some owner

namespace Load

variable {σ : Type} {settlement : Settlement} {settlements : List Settlement}
  {tail : List Exchange} {failure : Failure} {owner : Text}

/-! ## Links -/

namespace Settlement

/-- The link of an import that is resolved. -/
def linkOf (document : Document) (site : Expr.ImportSite) (target : Text) : ImportLink :=
  ⟨some document.path, target, site.span.rangeIn document.source.text⟩

/-- The links of the imports that are resolved, in source order. -/
def links (settlement : Settlement) : List ImportLink :=
  List.zipWith (linkOf settlement.document) settlement.sites settlement.targets

end Settlement

theorem linksFrom_append (first second : List Exchange) :
    linksFrom owner (first ++ second) = linksFrom owner first ++ linksFrom owner second := by
  rw [linksFrom, List.filterMap_append, List.filter_append]
  rfl

theorem filterMap_link?_zipWith (document : Document) (sites : List Expr.ImportSite)
    (targets : List Text) :
    (List.zipWith (Settlement.exchange document) sites targets).filterMap Exchange.link? =
      List.zipWith (Settlement.linkOf document) sites targets := by
  induction sites generalizing targets with
  | nil => rfl
  | cons site sites induction =>
      cases targets with
      | nil => rfl
      | cons target targets =>
          rw [List.zipWith_cons_cons, List.zipWith_cons_cons, ← induction targets]
          rfl

theorem filterMap_link?_exchanges :
    settlement.exchanges.filterMap Exchange.link? = settlement.links :=
  filterMap_link?_zipWith settlement.document settlement.sites settlement.targets

theorem source_of_mem_links {link : ImportLink} (member : link ∈ settlement.links) :
    link.source = some settlement.path := by
  obtain ⟨index, isLink⟩ := List.mem_iff_getElem?.mp member
  obtain ⟨site, target, _, _, rfl⟩ := List.getElem?_zipWith_eq_some.mp isLink
  rfl

/-- The links of a document are kept, and those of all others are not. -/
theorem linksFrom_exchanges : linksFrom owner settlement.exchanges =
    if settlement.path = owner then settlement.links else [] := by
  rw [linksFrom, filterMap_link?_exchanges]
  split_ifs with isOwner
  · refine List.filter_eq_self.mpr fun link member => ?_
    rw [source_of_mem_links member, isOwner, beq_self_eq_true]
  · refine List.filter_eq_nil_iff.mpr fun link member => ?_
    rw [source_of_mem_links member]
    simpa using isOwner

theorem linksFrom_others (other : ∀ settlement ∈ settlements, settlement.path ≠ owner) :
    linksFrom owner (settlements.flatMap Settlement.exchanges) = [] := by
  induction settlements with
  | nil => rfl
  | cons settlement settlements induction =>
      obtain ⟨first, others⟩ := List.forall_mem_cons.mp other
      rw [List.flatMap_cons, linksFrom_append, linksFrom_exchanges, if_neg first, induction others]
      rfl

/-- The request that fails leaves no link. -/
theorem linksFrom_tail (halts : Halts settlements tail failure) : linksFrom owner tail = [] := by
  cases halts with
  | unread _ _ _ => rfl
  | inside _ inside =>
      cases inside with
      | unencodable _ _ => rfl
      | @unresolved site reply _ _ _ failed =>
          cases reply with
          | answer target => cases failed
          | refused error => rfl
          | broken reason => rfl
  | unending _ => rfl

/-- The links of the first document are those of its settlement. -/
theorem linksFrom_first (distinct : ((settlement :: settlements).map Settlement.path).Nodup) :
    linksFrom settlement.path ((settlement :: settlements).flatMap Settlement.exchanges) =
      settlement.links := by
  rw [List.map_cons, List.nodup_cons] at distinct
  have others : ∀ other ∈ settlements, other.path ≠ settlement.path := by
    intro other member same
    exact distinct.1 (same ▸ List.mem_map_of_mem member)
  rw [List.flatMap_cons, linksFrom_append, linksFrom_exchanges, if_pos rfl, linksFrom_others others,
    List.append_nil]

/-! ## The first document -/

theorem Halts.of_nil (halts : Halts [] tail failure) :
    (∃ path reply, tail = [⟨.fetch path, reply⟩] ∧ readFailure? path reply = some failure) ∨
      tail = [] ∧ failure = .fault .unending := by
  generalize isNil : ([] : List Settlement) = settlements at halts
  cases halts with
  | @unread _ path reply _ _ _ failed => exact .inl ⟨path, reply, rfl, failed⟩
  | inside _ _ => cases List.append_ne_nil_of_right_ne_nil _ (List.cons_ne_nil _ _) isNil.symm
  | unending _ => exact .inr ⟨rfl, rfl⟩

/-- A crawl that halts has resolved all imports of its first document, or halts at one of them. -/
theorem Halts.of_cons (halts : Halts (settlement :: settlements) tail failure) :
    settlement.Complete ∨ HaltsInside settlement tail failure := by
  generalize whole : settlement :: settlements = all at halts
  cases halts with
  | unread complete _ _ => exact .inl (complete settlement (whole ▸ List.mem_cons_self))
  | @inside before last _ _ complete inside =>
      cases before with
      | nil =>
          cases whole
          exact .inr inside
      | cons first before =>
          cases whole
          exact .inl (complete settlement List.mem_cons_self)
  | unending complete => exact .inl (complete settlement (whole ▸ List.mem_cons_self))

/-- What becomes of the entry of a crawl. -/
inductive Entered (entry : Text) : List Exchange → Except Failure Unit → Prop where
  /-- The entry is read.  If an import of it is not resolved then the crawl halts there. -/
  | read {settlement : Settlement} {exchanges : List Exchange} {result : Except Failure Unit} :
      settlement.path = entry →
      settlement.Sound →
      settlement.exchanges ⊆ exchanges →
      linksFrom entry exchanges = settlement.links →
      (settlement.Complete ∨ ∃ tail failure,
        tail ⊆ exchanges ∧ HaltsInside settlement tail failure ∧ result = .error failure) →
      Entered entry exchanges result
  | unread {reply : Reply} {failure : Failure} :
      readFailure? entry reply = some failure →
      Entered entry [⟨.fetch entry, reply⟩] (.error failure)
  | unending : Entered entry [] (.error (.fault .unending))

/-- What becomes of the entry of a crawl that starts with nothing stored. -/
theorem crawl_entered (host : Host σ) (bound : Nat) (entry : Text) (initial : σ) :
    Entered entry (transcript bound host entry (.start initial))
      (transcribed bound host entry (.start initial)).1 := by
  rcases crawl_settled host (settled_start initial) (List.forall_mem_nil _) bound entry with
    ⟨settlements, after, crawled, settled, grows, begins⟩ |
    ⟨settlements, failure, tail, after, crawled, settled, halts, begins⟩
  · have isAfter : transcribed bound host entry (.start initial) = (.ok ⟨⟩, after) := crawled
    rw [List.nil_append] at settled
    rw [transcript, isAfter, settled.transcript_eq, List.append_nil]
    cases settlements with
    | nil => exact absurd (grows.visited entry List.mem_cons_self) List.not_mem_nil
    | cons settlement others =>
        have isEntry : settlement.path = entry :=
          Call.fetch.inj (begins entry [] rfl List.not_mem_nil _ _ rfl)
        refine .read isEntry (settled.sound _ List.mem_cons_self) ?_ ?_
          (.inl (grows.complete _ List.mem_cons_self))
        · rw [List.flatMap_cons]
          exact List.subset_append_left _ _
        · rw [← isEntry]
          exact linksFrom_first settled.distinct
  · have isAfter : transcribed bound host entry (.start initial) = (.error failure, after) :=
      crawled
    rw [List.nil_append] at settled halts
    rw [transcript, isAfter, settled.transcript_eq]
    cases settlements with
    | nil =>
        rcases halts.of_nil with ⟨path, reply, rfl, failed⟩ | ⟨rfl, rfl⟩
        · obtain rfl : path = entry :=
            Call.fetch.inj (begins entry [] rfl List.not_mem_nil _ _ rfl)
          exact .unread failed
        · exact .unending
    | cons settlement others =>
        have isEntry : settlement.path = entry :=
          Call.fetch.inj (begins entry [] rfl List.not_mem_nil _ _ rfl)
        refine .read isEntry (settled.sound _ List.mem_cons_self) ?_ ?_ ?_
        · rw [List.flatMap_cons, List.append_assoc]
          exact List.subset_append_left _ _
        · rw [linksFrom_append, linksFrom_tail halts, List.append_nil, ← isEntry]
          exact linksFrom_first settled.distinct
        · refine halts.of_cons.imp_right fun inside => ?_
          exact ⟨tail, failure, List.subset_append_right _ _, inside, rfl⟩

end Load

end ConfigGraph
