import ConfigGraph.Proofs.Document
import ConfigGraph.Proofs.Keys
import ConfigGraph.Proofs.Load.Transcript

/-!
# What a crawl has settled

A settlement is a stored document with the paths of its imports, as far as they are resolved.  At
every moment of a crawl the store and the transcript are those of its settlements (`Settled`).  Each
part of a crawl either goes on from such a state to another one, or halts: `Halts` lists the reasons
and what the transcript has at its end then.
-/

namespace ConfigGraph

/-- The call that resolves an import of a document. -/
def Document.resolution (document : Document) (site : Expr.ImportSite) : Resolution :=
  ⟨site.path, site.span.rangeIn document.source.text, some document.path⟩

namespace Load

/-! ## Settlements -/

structure Settlement where
  document : Document
  targets : List Text

namespace Settlement

abbrev path (settlement : Settlement) : Text := settlement.document.path

abbrev sites (settlement : Settlement) : List Expr.ImportSite :=
  settlement.document.content.imports

/-- The exchange about an import that is resolved. -/
def exchange (document : Document) (site : Expr.ImportSite) (target : Text) : Exchange :=
  ⟨.resolve (document.resolution site), .answer target⟩

def key (document : Document) (site : Expr.ImportSite) : ImportKey :=
  ⟨document.path, some site.span⟩

/-- What the host was asked for: the text of the document, and then its imports in order. -/
def exchanges (settlement : Settlement) : List Exchange :=
  ⟨.fetch settlement.path, .answer settlement.document.source.text⟩ ::
    List.zipWith (exchange settlement.document) settlement.sites settlement.targets

/-- The entries of the import table. -/
def entries (settlement : Settlement) : List (ImportKey × Text) :=
  List.zipWith (fun site target => (key settlement.document site, target)) settlement.sites
    settlement.targets

def Complete (settlement : Settlement) : Prop :=
  settlement.targets.length = settlement.sites.length

/-- The document was read as its path says, and an import that is resolved can be encoded. -/
structure Sound (settlement : Settlement) : Prop where
  format : settlement.document.format = .ofPath settlement.path
  content : parseDocument settlement.document.source settlement.document.format =
    .ok settlement.document.content
  length : settlement.targets.length ≤ settlement.sites.length
  encodable : ∀ site ∈ settlement.sites.take settlement.targets.length,
    site.path.isEncodable = true

/-- An exchange is about the text of the document, or about one of the imports and its path. -/
theorem mem_exchanges {settlement : Settlement} {other : Exchange} :
    other ∈ settlement.exchanges ↔
      other = ⟨.fetch settlement.path, .answer settlement.document.source.text⟩ ∨
      ∃ (index : Nat) (site : Expr.ImportSite) (target : Text),
        settlement.sites[index]? = some site ∧ settlement.targets[index]? = some target ∧
          other = exchange settlement.document site target := by
  rw [exchanges, List.mem_cons, List.mem_iff_getElem?]
  simp only [List.getElem?_zipWith_eq_some]
  refine or_congr_right ⟨?_, ?_⟩
  · rintro ⟨index, site, target, isSite, isTarget, rfl⟩
    exact ⟨index, site, target, isSite, isTarget, rfl⟩
  · rintro ⟨index, site, target, isSite, isTarget, rfl⟩
    exact ⟨index, site, target, isSite, isTarget, rfl⟩

theorem mem_entries {settlement : Settlement} {entry : ImportKey × Text} :
    entry ∈ settlement.entries ↔ ∃ (index : Nat) (site : Expr.ImportSite) (target : Text),
      settlement.sites[index]? = some site ∧ settlement.targets[index]? = some target ∧
        entry = (key settlement.document site, target) := by
  rw [List.mem_iff_getElem?]
  simp only [entries, List.getElem?_zipWith_eq_some]
  constructor
  · rintro ⟨index, site, target, isSite, isTarget, rfl⟩
    exact ⟨index, site, target, isSite, isTarget, rfl⟩
  · rintro ⟨index, site, target, isSite, isTarget, rfl⟩
    exact ⟨index, site, target, isSite, isTarget, rfl⟩

end Settlement

/-- One more member of the shorter of two lists. -/
theorem zipWith_append_singleton {α β γ : Type} (combine : α → β → γ) {lefts : List α}
    {rights : List β} {left : α} (right : β) (next : lefts[rights.length]? = some left) :
    List.zipWith combine lefts (rights ++ [right]) =
      List.zipWith combine lefts rights ++ [combine left right] := by
  induction lefts generalizing rights with
  | nil => cases next
  | cons head lefts induction =>
      cases rights with
      | nil =>
          cases next
          simp
      | cons other rights =>
          simp only [List.length_cons, List.getElem?_cons_succ] at next
          simp [induction next]

/-! ## Failures -/

/-- The failure that comes of a reply to a request for the text of a path, if there is one: that of
the host, or that of a text that cannot be read. -/
def readFailure? (path : Text) : Reply → Option Failure
  | .answer text =>
      match parseDocument ⟨path, text⟩ (.ofPath path) with
      | .ok _ => none
      | .error failure => some failure
  | .refused error => some (.error (error.locate path none))
  | .broken reason => some (.error (fetchError path reason))

/-- The failure that comes of a reply to a request to resolve an import, if there is one. -/
def resolveFailure? (document : Document) (site : Expr.ImportSite) : Reply → Option Failure
  | .answer _ => none
  | .refused error =>
      some (.error (error.locate document.path (some (site.span.rangeIn document.source.text))))
  | .broken reason =>
      some (.error (resolutionError document.path (site.span.rangeIn document.source.text) site.path
        reason))

/-- An import that is not resolved makes a load fail with an error. -/
theorem resolveFailure?_ne_fault {document : Document} {site : Expr.ImportSite} {reply : Reply}
    {fault : Fault} : resolveFailure? document site reply ≠ some (.fault fault) := by
  cases reply <;> exact nofun

/-- How the imports of a document halt: at the first one that cannot be encoded, about which the
host is not asked, or at the first one that the host does not resolve. -/
inductive HaltsInside (settlement : Settlement) : List Exchange → Failure → Prop where
  | unencodable {site : Expr.ImportSite} :
      settlement.sites[settlement.targets.length]? = some site →
      site.path.isEncodable = false →
      HaltsInside settlement []
        (.error (encodingError settlement.path
          (site.span.rangeIn settlement.document.source.text) site.path))
  | unresolved {site : Expr.ImportSite} {reply : Reply} {failure : Failure} :
      settlement.sites[settlement.targets.length]? = some site →
      site.path.isEncodable = true →
      resolveFailure? settlement.document site reply = some failure →
      HaltsInside settlement [⟨.resolve (settlement.document.resolution site), reply⟩] failure

/-- How a crawl halts, and what the transcript has behind the settlements then. -/
inductive Halts : List Settlement → List Exchange → Failure → Prop where
  /-- A document that cannot be fetched or read. -/
  | unread {settlements : List Settlement} {path : Text} {reply : Reply} {failure : Failure} :
      (∀ settlement ∈ settlements, settlement.Complete) →
      path ∉ settlements.map Settlement.path →
      readFailure? path reply = some failure →
      Halts settlements [⟨.fetch path, reply⟩] failure
  /-- An import of the last document. -/
  | inside {settlements : List Settlement} {last : Settlement} {tail : List Exchange}
      {failure : Failure} :
      (∀ settlement ∈ settlements, settlement.Complete) →
      HaltsInside last tail failure →
      Halts (settlements ++ [last]) tail failure
  /-- The bound on the number of visits, between two documents. -/
  | unending {settlements : List Settlement} :
      (∀ settlement ∈ settlements, settlement.Complete) →
      Halts settlements [] (.fault .unending)

/-- The place of a request: that of an import, or a path in the whole. -/
def place? : Call → Option (Text × Option Range)
  | .resolve resolution => resolution.base.map fun owner => (owner, some resolution.range)
  | .fetch path => some (path, none)
  | .report _ => none

/-- What a crawl that halts asked for last, and the failure that comes of the reply. -/
inductive HaltsBy : List Exchange → Failure → Prop where
  | unread {path text : Text} {failure : Failure} :
      parseDocument ⟨path, text⟩ (.ofPath path) = .error failure →
      HaltsBy [⟨.fetch path, .answer text⟩] failure
  /-- An error of the host gets the place of the request, unless it has one. -/
  | refused {call : Call} {error : LoadError} {path : Text} {range : Option Range} :
      place? call = some (path, range) →
      HaltsBy [⟨call, .refused error⟩] (.error (error.locate path range))
  | unfetched {path reason : Text} :
      HaltsBy [⟨.fetch path, .broken reason⟩] (.error (fetchError path reason))
  | unresolved {resolution : Resolution} {owner reason : Text} :
      resolution.base = some owner →
      HaltsBy [⟨.resolve resolution, .broken reason⟩]
        (.error (resolutionError owner resolution.range resolution.written reason))
  /-- The host is not asked about an import that cannot be encoded. -/
  | unencodable {owner written : Text} {range : Range} :
      HaltsBy [] (.error (encodingError owner range written))
  | unending : HaltsBy [] (.fault .unending)

theorem haltsBy_of_readFailure {path : Text} {reply : Reply} {failure : Failure}
    (failed : readFailure? path reply = some failure) :
    HaltsBy [⟨.fetch path, reply⟩] failure := by
  cases reply with
  | answer text =>
      simp only [readFailure?] at failed
      split at failed
      case h_1 => cases failed
      case h_2 parsed =>
        cases failed
        exact .unread parsed
  | refused error =>
      cases failed
      exact .refused rfl
  | broken reason =>
      cases failed
      exact .unfetched

theorem haltsBy_of_resolveFailure {document : Document} {site : Expr.ImportSite} {reply : Reply}
    {failure : Failure} (failed : resolveFailure? document site reply = some failure) :
    HaltsBy [⟨.resolve (document.resolution site), reply⟩] failure := by
  cases reply with
  | answer target => cases failed
  | refused error =>
      cases failed
      exact .refused rfl
  | broken reason =>
      cases failed
      exact .unresolved rfl

theorem Halts.haltsBy {settlements : List Settlement} {tail : List Exchange} {failure : Failure}
    (halts : Halts settlements tail failure) : HaltsBy tail failure := by
  cases halts with
  | unread _ _ failed => exact haltsBy_of_readFailure failed
  | inside _ inside =>
      cases inside with
      | unencodable _ _ => exact .unencodable
      | unresolved _ _ failed => exact haltsBy_of_resolveFailure failed
  | unending _ => exact .unending

/-! ## Settled states -/

/-- The store and the transcript of a crawl are those of its settlements, but for exchanges at the
end.  Some exchanges can be from before the crawl. -/
structure Settled {σ : Type} (earlier : List Exchange) (settlements : List Settlement)
    (tail : List Exchange) (state : LoadState (σ × List Exchange)) : Prop where
  documents : state.store.documents = settlements.map Settlement.document
  imports : state.store.imports = settlements.flatMap Settlement.entries
  transcript : earlier ++ state.host.2 = settlements.flatMap Settlement.exchanges ++ tail
  numbers : ∀ (index : Nat) (document : Document), state.store.documents[index]? = some document →
    document.number = index
  distinct : (settlements.map Settlement.path).Nodup
  sound : ∀ settlement ∈ settlements, settlement.Sound

theorem Settled.transcript_eq {σ : Type} {settlements : List Settlement} {tail : List Exchange}
    {state : LoadState (σ × List Exchange)} (settled : Settled [] settlements tail state) :
    state.host.2 = settlements.flatMap Settlement.exchanges ++ tail :=
  settled.transcript

theorem Settled.contains_iff {σ : Type} {earlier : List Exchange} {settlements : List Settlement}
    {tail : List Exchange} {state : LoadState (σ × List Exchange)}
    (settled : Settled earlier settlements tail state) {path : Text} :
    state.store.contains path = true ↔ path ∈ settlements.map Settlement.path := by
  simp [Store.contains, settled.documents]

end Load

end ConfigGraph
