import ConfigGraph.Host.Memory
import ConfigGraph.Proofs.Evaluation.Closed
import ConfigGraph.Proofs.Load.Trace
import Mathlib.Data.List.Nodup

/-!
# Stores that crawls leave behind

After any number of crawls that succeeded, with evaluations in between, a store is closed.  All
imports in it have been resolved, each to what the host answered about that very one, and lead to
documents of the store.  Nothing is stored that no entry leads to.  So no evaluation ever meets an
unresolved import, or a document that is not there.
-/

namespace ConfigGraph.Load

variable {σ : Type}

/-! ## Looking up imports -/

/-- The import of a document that is resolved is found in the table, with its path. -/
theorem Settled.target? {earlier : List Exchange} {settlements : List Settlement}
    {tail : List Exchange} {state : LoadState (σ × List Exchange)}
    (settled : Settled earlier settlements tail state) {settlement : Settlement}
    (member : settlement ∈ settlements) {index : Nat} {site : Expr.ImportSite} {target : Text}
    (isSite : settlement.sites[index]? = some site)
    (isTarget : settlement.targets[index]? = some target) :
    state.store.target? (Settlement.key settlement.document site) = some target := by
  have isEntry : (Settlement.key settlement.document site, target) ∈ state.store.imports := by
    rw [settled.imports]
    refine List.mem_flatMap.mpr ⟨settlement, member, ?_⟩
    exact Settlement.mem_entries.mpr ⟨index, site, target, isSite, isTarget, rfl⟩
  unfold Store.target?
  cases found : state.store.imports.find? fun entry =>
      entry.1 = Settlement.key settlement.document site with
  | none =>
      have differs := List.find?_eq_none.mp found _ isEntry
      simp at differs
  | some entry =>
      have sameKey : entry.1 = Settlement.key settlement.document site := by
        simpa using List.find?_some found
      -- The first entry with the key is that of this import, since no other has the key.
      have isOther := List.mem_of_find?_eq_some found
      rw [settled.imports] at isOther
      obtain ⟨other, otherMember, otherEntry⟩ := List.mem_flatMap.mp isOther
      obtain ⟨otherIndex, otherSite, otherTarget, isOtherSite, isOtherTarget, rfl⟩ :=
        Settlement.mem_entries.mp otherEntry
      simp only [Settlement.key, ImportKey.mk.injEq, Option.some.injEq] at sameKey
      have same : other = settlement :=
        List.inj_on_of_nodup_map settled.distinct otherMember member sameKey.1
      subst same
      have sitesIn := sitesIn_of_parseDocument (settled.sound other otherMember).content
      have sameIndex := sitesIn.index_unique isOtherSite isSite sameKey.2
      subst sameIndex
      rw [isTarget] at isOtherTarget
      cases isOtherTarget
      rfl

/-! ## Crawls and evaluations -/

/-- What crawls that succeeded and evaluations leave behind: the entries and all exchanges of the
crawls, the store, and the session of the evaluations.  The host can change from crawl to crawl. -/
inductive Used : List Text → List Exchange → Store → Session → Prop where
  | fresh : Used [] [] .empty .start
  | crawl {σ : Type} {entries : List Text} {exchanges : List Exchange} {session : Session}
      {bound : Nat} {host : Host σ} {entry : Text} {before : LoadState σ} :
      Used entries exchanges before.store session →
      (perform (crawl bound host entry) before).1 = .ok ⟨⟩ →
      Used (entries ++ [entry]) (exchanges ++ transcript bound host entry before)
        (perform (crawl bound host entry) before).2.store session
  | evaluate {entries : List Text} {exchanges : List Exchange} {store : Store} {session : Session}
      {depth : Nat} {path : Text} :
      Used entries exchanges store session →
      Used entries exchanges store ((Evaluation.ofPath depth store path).perform session).2

/-- What is known of the store after crawls that succeeded. -/
structure Settles (entries : List Text) (exchanges : List Exchange) (settlements : List Settlement)
    (store : Store) : Prop where
  settled : Settled exchanges settlements [] (⟨((), []), store, []⟩ : LoadState (Unit × _))
  complete : ∀ settlement ∈ settlements, settlement.Complete
  visited : ∀ entry ∈ entries, entry ∈ settlements.map Settlement.path
  closed : ∀ settlement ∈ settlements, ∀ target ∈ settlement.targets,
    target ∈ settlements.map Settlement.path
  reached : ∀ settlement ∈ settlements, ∃ entry ∈ entries,
    Relation.ReflTransGen (Leads settlements) entry settlement.path

theorem settles_fresh : Settles [] [] [] .empty :=
  ⟨settled_start (), by simp, by simp, by simp, by simp⟩

/-- The state of the host and the log do not matter to what is settled. -/
theorem Settled.withHost {τ : Type} {earlier : List Exchange} {settlements : List Settlement}
    {tail : List Exchange} {store : Store} {log : List LogEntry} {exchanges : List Exchange}
    {host : σ} (settled : Settled earlier settlements tail
      (⟨(host, exchanges), store, log⟩ : LoadState (σ × List Exchange)))
    (other : τ) (otherLog : List LogEntry) :
    Settled earlier settlements tail
      (⟨(other, exchanges), store, otherLog⟩ : LoadState (τ × List Exchange)) :=
  ⟨settled.documents, settled.imports, settled.transcript, settled.numbers, settled.distinct,
    settled.sound⟩

/-- The exchanges of a crawl that is over count as earlier ones. -/
theorem Settled.rebase {earlier : List Exchange} {settlements : List Settlement}
    {tail : List Exchange} {state : LoadState (σ × List Exchange)}
    (settled : Settled earlier settlements tail state) :
    Settled (earlier ++ state.host.2) settlements tail
      (⟨((), []), state.store, []⟩ : LoadState (Unit × List Exchange)) := by
  refine ⟨settled.documents, settled.imports, ?_, settled.numbers, settled.distinct, settled.sound⟩
  rw [List.append_nil]
  exact settled.transcript

theorem Settles.crawl {entries : List Text} {exchanges : List Exchange}
    {settlements : List Settlement} {before : LoadState σ}
    (settles : Settles entries exchanges settlements before.store) {bound : Nat} {host : Host σ}
    {entry : Text} (succeeded : (perform (crawl bound host entry) before).1 = .ok ⟨⟩) :
    ∃ more, Settles (entries ++ [entry]) (exchanges ++ transcript bound host entry before)
      (settlements ++ more) (perform (Load.crawl bound host entry) before).2.store := by
  have start := settles.settled.withHost before.host before.log
  rw [perform_crawl] at succeeded ⊢
  rcases crawl_settled host start settles.complete bound entry with
    ⟨more, after, performed, settled, grows, _⟩ |
    ⟨more, failure, tail, after, performed, _, _, _⟩
  · have isAfter : transcribed bound host entry before = (.ok ⟨⟩, after) := performed
    have subset : settlements ⊆ settlements ++ more := List.subset_append_left _ _
    have later : more ⊆ settlements ++ more := List.subset_append_right _ _
    refine ⟨more, ?_⟩
    rw [transcript, isAfter]
    refine ⟨settled.rebase, ?_, ?_, ?_, ?_⟩
    · exact List.forall_mem_append.mpr ⟨settles.complete, grows.complete⟩
    · refine List.forall_mem_append.mpr ⟨fun other member => ?_, grows.visited⟩
      rw [List.map_append]
      exact List.mem_append_left _ (settles.visited other member)
    · refine List.forall_mem_append.mpr ⟨fun settlement member target isTarget => ?_, grows.closed⟩
      rw [List.map_append]
      exact List.mem_append_left _ (settles.closed settlement member target isTarget)
    · refine List.forall_mem_append.mpr ⟨fun settlement member => ?_, fun settlement member => ?_⟩
      · obtain ⟨start, isEntry, leads⟩ := settles.reached settlement member
        exact ⟨start, List.mem_append_left _ isEntry,
          Relation.ReflTransGen.mono (fun _ _ => Leads.mono subset) _ _ leads⟩
      · obtain ⟨start, isEntry, leads⟩ := grows.reached settlement member
        exact ⟨start, List.mem_append_right _ isEntry,
          Relation.ReflTransGen.mono (fun _ _ => Leads.mono later) _ _ leads⟩
  · have isAfter : transcribed bound host entry before = (.error failure, after) := performed
    rw [isAfter] at succeeded
    cases succeeded

namespace Settles

variable {entries : List Text} {exchanges : List Exchange} {settlements : List Settlement}
  {store : Store}

theorem contains_iff (settles : Settles entries exchanges settlements store) {path : Text} :
    store.contains path = true ↔ path ∈ settlements.map Settlement.path :=
  settles.settled.contains_iff

/-- Every import has been resolved, and leads to a stored document. -/
theorem resolved (settles : Settles entries exchanges settlements store) {settlement : Settlement}
    (member : settlement ∈ settlements) {index : Nat} {site : Expr.ImportSite}
    (isSite : settlement.sites[index]? = some site) :
    ∃ target, settlement.targets[index]? = some target ∧
      store.target? (Settlement.key settlement.document site) = some target ∧
      store.contains target = true := by
  have inside := (List.getElem?_eq_some_iff.mp isSite).1
  rw [← settles.complete settlement member] at inside
  have isTarget := List.getElem?_eq_getElem inside
  refine ⟨_, isTarget, settles.settled.target? member isSite isTarget, ?_⟩
  rw [settles.contains_iff]
  exact settles.closed settlement member _ (List.getElem_mem inside)

/-- Where an import leads can be read off the table. -/
theorem target_of_leads (settles : Settles entries exchanges settlements store)
    {owner target : Text} (leads : Leads settlements owner target) :
    ∃ span, store.target? ⟨owner, some span⟩ = some target := by
  obtain ⟨settlement, member, rfl, isMember⟩ := leads
  obtain ⟨index, isTarget⟩ := List.mem_iff_getElem?.mp isMember
  have inside := (List.getElem?_eq_some_iff.mp isTarget).1
  rw [settles.complete settlement member] at inside
  exact ⟨_, settles.settled.target? member (List.getElem?_eq_getElem inside) isTarget⟩

theorem store_closed (settles : Settles entries exchanges settlements store) : store.Closed := by
  have documents : store.documents = settlements.map Settlement.document :=
    settles.settled.documents
  constructor
  · rw [documents]
    intro document isDocument
    obtain ⟨settlement, member, rfl⟩ := List.mem_map.mp isDocument
    exact (settles.settled.sound settlement member).content
  · rw [documents]
    intro document isDocument site isSite
    obtain ⟨settlement, member, rfl⟩ := List.mem_map.mp isDocument
    obtain ⟨index, found⟩ := List.mem_iff_getElem?.mp isSite
    obtain ⟨target, _, isTarget, known⟩ := settles.resolved member found
    exact ⟨target, isTarget, known⟩

end Settles

/-! ## The theorem -/

/-- What crawls and evaluations keep. -/
theorem Used.settles {entries : List Text} {exchanges : List Exchange} {store : Store}
    {session : Session} (used : Used entries exchanges store session) :
    ∃ settlements, Settles entries exchanges settlements store ∧
      Evaluation.Remembers store.documents session := by
  induction used with
  | fresh => exact ⟨[], settles_fresh, List.forall_mem_nil _⟩
  | crawl _ succeeded induction =>
      obtain ⟨settlements, settles, remembers⟩ := induction
      obtain ⟨more, later⟩ := settles.crawl succeeded
      -- What the session remembers stands in documents that are still stored.
      refine ⟨settlements ++ more, later, fun entry member => ?_⟩
      refine (remembers entry member).mono fun document isDocument => ?_
      have before : _ = settlements.map Settlement.document := settles.settled.documents
      have behind : _ = (settlements ++ more).map Settlement.document := later.settled.documents
      rw [behind, List.map_append]
      rw [before] at isDocument
      exact List.mem_append_left _ isDocument
  | evaluate _ induction =>
      obtain ⟨settlements, settles, remembers⟩ := induction
      exact ⟨settlements, settles,
        Evaluation.remembers_ofPath settles.store_closed _ _ remembers⟩

/-- What holds after any crawls that succeeded, with evaluations in between.

The entries are stored.  The store and the exchanges with the hosts are those of settlements, one
for each document: every import that stands anywhere in the tree of a document is among its sites,
no two of which have the same span; for each site the host was asked once, and the table has the
answer at the path of the document and the span of the site; and the answer is a stored path.  An
entry leads to every stored path by way of the table.  No evaluation of a stored path, whatever its
depth and whatever was evaluated before, meets an internal fault. -/
theorem closure_of_crawls {entries : List Text} {exchanges : List Exchange} {store : Store}
    {session : Session} (used : Used entries exchanges store session) :
    (∀ entry ∈ entries, store.contains entry = true) ∧
    (∃ settlements : List Settlement,
      store.documents = settlements.map Settlement.document ∧
      (settlements.map Settlement.path).Nodup ∧
      exchanges = settlements.flatMap Settlement.exchanges ∧
      ∀ settlement ∈ settlements,
        (∀ tree, settlement.document.content = .expr tree → ∀ span path,
          (Expr.importOf span path).Within tree → ⟨span, path⟩ ∈ settlement.sites) ∧
        (settlement.sites.map (·.span)).Nodup ∧
        ∀ (index : Nat) (site : Expr.ImportSite), settlement.sites[index]? = some site → ∃ target,
          settlement.exchanges[index + 1]? =
            some ⟨.resolve (settlement.document.resolution site), .answer target⟩ ∧
          store.target? ⟨settlement.path, some site.span⟩ = some target ∧
          store.contains target = true) ∧
    (∀ document ∈ store.documents, ∃ entry ∈ entries,
      Relation.ReflTransGen
        (fun owner target => ∃ span, store.target? ⟨owner, some span⟩ = some target)
        entry document.path) ∧
    ∀ (depth : Nat) (path : Text), store.contains path = true → ∀ fault,
      ((Evaluation.ofPath depth store path).perform session).1 ≠
        .error (.fault (.internal fault)) := by
  obtain ⟨settlements, settles, remembers⟩ := used.settles
  have documents : store.documents = settlements.map Settlement.document :=
    settles.settled.documents
  have transcript : exchanges = settlements.flatMap Settlement.exchanges := by
    simpa using settles.settled.transcript
  refine ⟨?_, ⟨settlements, documents, settles.settled.distinct, transcript, ?_⟩, ?_, ?_⟩
  · intro entry member
    rw [settles.contains_iff]
    exact settles.visited entry member
  · intro settlement member
    have sitesIn := sitesIn_of_parseDocument (settles.settled.sound settlement member).content
    refine ⟨fun tree isTree span path within => ?_, sitesIn.nodup_spans,
      fun index site isSite => ?_⟩
    · rw [Settlement.sites, isTree]
      exact within.mem_imports
    · obtain ⟨target, isTarget, found, known⟩ := settles.resolved member isSite
      refine ⟨target, ?_, found, known⟩
      rw [Settlement.exchanges, List.getElem?_cons_succ, List.getElem?_zipWith, isSite, isTarget]
      rfl
  · rw [documents]
    intro document isDocument
    obtain ⟨settlement, member, rfl⟩ := List.mem_map.mp isDocument
    obtain ⟨entry, isEntry, leads⟩ := settles.reached settlement member
    refine ⟨entry, isEntry, Relation.ReflTransGen.mono ?_ _ _ leads⟩
    intro owner target isLed
    exact settles.target_of_leads isLed
  · intro depth path known
    exact (Evaluation.safe_ofPath settles.store_closed depth known).not_internal remembers

theorem perform_of_isOk {part : Load σ Unit} {state : LoadState σ}
    (succeeds : (perform part state).1.isOk = true) : (perform part state).1 = .ok ⟨⟩ := by
  cases result : (perform part state).1 with
  | ok value => rfl
  | error failure =>
      rw [result] at succeeds
      cases succeeds

/-- Two documents that need each other; one of them does so in the body of a function. -/
def mutualDocuments : Host Unit :=
  .memory [("/a.cairn", "import \"b.cairn\""), ("/b.cairn", "fun x => import \"a.cairn\"")]

theorem closure_of_crawls_mutual :
    ∃ exchanges store, Used ["/a.cairn"] exchanges store .start ∧
      store.contains "/b.cairn" = true ∧
      ∀ depth fault, ((Evaluation.ofPath depth store "/b.cairn").perform .start).1 ≠
        .error (.fault (.internal fault)) := by
  have crawled : (perform (crawl 4 mutualDocuments "/a.cairn") (.start ())).1.isOk = true := by
    decide +kernel
  have used := Used.crawl .fresh (perform_of_isOk crawled)
  have known : (perform (crawl 4 mutualDocuments "/a.cairn")
      (.start ())).2.store.contains "/b.cairn" = true := by
    decide +kernel
  obtain ⟨_, _, _, evaluates⟩ := closure_of_crawls used
  exact ⟨_, _, used, known, fun depth fault => evaluates depth _ known fault⟩

end ConfigGraph.Load
