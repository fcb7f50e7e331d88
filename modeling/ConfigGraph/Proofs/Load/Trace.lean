import ConfigGraph.Host.Memory
import ConfigGraph.Proofs.Load.Visit

/-!
# What a crawl asks for

The calls of a crawl are determined by the documents that it stores: for each of them in order, one
request for its text and then one request for each of its imports, up to the first failure.  A crawl
that succeeds has left no path; only one that has made as many visits as it may can stop between two
documents.
-/

namespace ConfigGraph.Load

variable {σ : Type} {earlier : List Exchange} {settlements : List Settlement}
  {tail : List Exchange} {state : LoadState (σ × List Exchange)}

/-- The path whose text an exchange is about. -/
def fetchedPath? (exchange : Exchange) : Option Text := exchange.call.fetched?

/-- Nothing is settled before the first crawl. -/
theorem settled_start (host : σ) : Settled [] [] [] (.start (host, [])) :=
  ⟨rfl, rfl, rfl, by simp [LoadState.start, Store.empty], by simp, by simp⟩

/-- How a crawl that starts with nothing stored ends, and its transcript. -/
theorem transcribed_settled (host : Host σ) (bound : Nat) (entry : Text) (initial : σ) :
    ∃ settlements tail result after,
      transcribed bound host entry (.start initial) = (result, after) ∧
      transcript bound host entry (.start initial) =
        settlements.flatMap Settlement.exchanges ++ tail ∧
      Settled [] settlements tail after ∧
      (result = .ok ⟨⟩ ∧ tail = [] ∨
        ∃ failure, result = .error failure ∧ Halts settlements tail failure) := by
  rcases crawl_settled host (settled_start initial) (List.forall_mem_nil _) bound entry with
    ⟨settlements, after, crawled, settled, _, _⟩ |
    ⟨settlements, failure, tail, after, crawled, settled, halts, _⟩
  · have isAfter : transcribed bound host entry (.start initial) = (.ok ⟨⟩, after) := crawled
    rw [List.nil_append] at settled
    refine ⟨settlements, [], _, after, isAfter, ?_, settled, .inl ⟨rfl, rfl⟩⟩
    rw [transcript, isAfter, settled.transcript_eq]
  · have isAfter : transcribed bound host entry (.start initial) = (.error failure, after) :=
      crawled
    rw [List.nil_append] at settled halts
    refine ⟨settlements, tail, _, after, isAfter, ?_, settled, .inr ⟨failure, rfl, halts⟩⟩
    rw [transcript, isAfter, settled.transcript_eq]

/-! ## Paths that are fetched -/

theorem filterMap_zipWith_exchange {β : Type} {pick : Exchange → Option β} {document : Document}
    (notResolved : ∀ site target, pick (Settlement.exchange document site target) = none)
    (sites : List Expr.ImportSite) (targets : List Text) :
    (List.zipWith (Settlement.exchange document) sites targets).filterMap pick = [] := by
  rw [List.filterMap_eq_nil_iff]
  intro exchange member
  obtain ⟨index, found⟩ := List.mem_iff_getElem?.mp member
  obtain ⟨site, target, _, _, rfl⟩ := List.getElem?_zipWith_eq_some.mp found
  exact notResolved site target

/-- Of each settlement, the text of the document is fetched. -/
theorem filterMap_exchanges {β : Type} (pick : Exchange → Option β) (found : Document → β)
    (fetched : ∀ document : Document,
      pick ⟨.fetch document.path, .answer document.source.text⟩ = some (found document))
    (notResolved : ∀ document site target,
      pick (Settlement.exchange document site target) = none) (settlements : List Settlement) :
    (settlements.flatMap Settlement.exchanges).filterMap pick =
      settlements.map fun settlement => found settlement.document := by
  induction settlements with
  | nil => rfl
  | cons settlement settlements induction =>
      rw [List.flatMap_cons, List.filterMap_append, induction, Settlement.exchanges,
        List.filterMap_cons_some (fetched settlement.document),
        filterMap_zipWith_exchange (notResolved settlement.document)]
      rfl

theorem filterMap_fetchedPath?_exchanges (settlements : List Settlement) :
    (settlements.flatMap Settlement.exchanges).filterMap fetchedPath? =
      settlements.map Settlement.path :=
  filterMap_exchanges fetchedPath? Document.path (fun _ => rfl) (fun _ _ _ => rfl) settlements

theorem nodup_fetched (settled : Settled [] settlements tail state)
    (ending : tail = [] ∨ ∃ failure, Halts settlements tail failure) :
    (state.host.2.filterMap fetchedPath?).Nodup := by
  rw [settled.transcript_eq, List.filterMap_append, filterMap_fetchedPath?_exchanges]
  rcases ending with rfl | ⟨failure, halts⟩
  · simpa using settled.distinct
  · cases halts with
    | @unread _ path reply _ _ isNew _ =>
        change (settlements.map Settlement.path ++ [path]).Nodup
        exact Keys.nodup_behind settled.distinct isNew
    | inside _ halts =>
        have nothing : tail.filterMap fetchedPath? = [] := by
          cases halts <;> rfl
        rw [nothing, List.append_nil]
        exact settled.distinct
    | unending _ => simpa using settled.distinct

/-! ## Imports that are resolved -/

/-- The host is never asked about an import that cannot be encoded. -/
theorem encodable_of_resolve (settled : Settled [] settlements tail state)
    (ending : tail = [] ∨ ∃ failure, Halts settlements tail failure) :
    ∀ exchange ∈ state.host.2, ∀ resolution, exchange.call = .resolve resolution →
      resolution.written.isEncodable = true := by
  intro exchange member resolution isResolve
  rw [settled.transcript_eq] at member
  rcases List.mem_append.mp member with inside | isLast
  · obtain ⟨settlement, isSettlement, isExchange⟩ := List.mem_flatMap.mp inside
    rcases Settlement.mem_exchanges.mp isExchange with
      rfl | ⟨index, site, target, isSite, isTarget, rfl⟩
    · cases isResolve
    · cases isResolve
      have before : index < settlement.targets.length := (List.getElem?_eq_some_iff.mp isTarget).1
      apply (settled.sound settlement isSettlement).encodable site
      rw [List.mem_iff_getElem?]
      exact ⟨index, by rw [List.getElem?_take_of_lt before, isSite]⟩
  · rcases ending with rfl | ⟨failure, halts⟩
    · cases isLast
    · cases halts with
      | unread _ _ _ =>
          cases List.mem_singleton.mp isLast
          cases isResolve
      | inside _ halts =>
          cases halts with
          | unencodable _ _ => cases isLast
          | unresolved _ encodable _ =>
              cases List.mem_singleton.mp isLast
              cases isResolve
              exact encodable
      | unending _ => cases isLast

/-! ## The bound -/

/-- A number of visits that succeed, each to the first of the paths that are left.  The paths that
come up go before the others. -/
inductive Rounds (host : Host σ) :
    Nat → List Text → LoadState σ → List Text → LoadState σ → Prop where
  | none {paths : List Text} {state : LoadState σ} : Rounds host 0 paths state paths state
  | next {count : Nat} {path : Text} {paths discovered left : List Text}
      {before middle after : LoadState σ} :
      perform (visit host path) before = (.ok discovered, middle) →
      Rounds host count (discovered.reverse ++ paths) middle left after →
      Rounds host (count + 1) (path :: paths) before left after

/-- Visits that fail lack a further one, or the last of them fails. -/
theorem rounds_of_visitAll {host : Host σ} {bound : Nat} {paths : List Text}
    {before after : LoadState σ} {failure : Failure}
    (failed : perform (visitAll host bound paths) before = (.error failure, after)) :
    (∃ path left, Rounds host bound paths before (path :: left) after) ∨
      ∃ count path left middle, Rounds host count paths before (path :: left) middle ∧
        perform (visit host path) middle = (.error failure, after) := by
  induction bound generalizing paths before with
  | zero =>
      cases paths with
      | nil => cases failed
      | cons path paths =>
          cases failed
          exact .inl ⟨path, paths, .none⟩
  | succ bound induction =>
      cases paths with
      | nil => cases failed
      | cons path paths =>
          unfold visitAll at failed
          rw [perform_bind] at failed
          rcases visited : perform (visit host path) before with ⟨other | discovered, middle⟩
          · rw [visited] at failed
            cases failed
            exact .inr ⟨0, path, paths, before, .none, visited⟩
          · rw [visited] at failed
            rcases induction failed with
              ⟨last, left, rounds⟩ | ⟨count, last, left, final, rounds, fails⟩
            · exact .inl ⟨last, left, .next visited rounds⟩
            · exact .inr ⟨count + 1, last, left, final, .next visited rounds, fails⟩

theorem visitAll_of_crawl {host : Host σ} {bound : Nat} {entry : Text} {before after : LoadState σ}
    {failure : Failure} (failed : perform (crawl bound host entry) before = (.error failure, after)) :
    perform (visitAll host bound [entry]) before = (.error failure, after) := by
  unfold crawl at failed
  rw [perform_bind] at failed
  rcases visits : perform (visitAll host bound [entry]) before with ⟨other | _, middle⟩
  · rw [visits] at failed
    exact failed
  · rw [visits] at failed
    cases failed

/-- Visits that succeed settle one document after the other. -/
theorem Rounds.settled {host : Host σ} {count : Nat} {paths left : List Text}
    {before after : LoadState (σ × List Exchange)}
    (rounds : Rounds host.transcribed count paths before left after)
    (settled : Settled earlier settlements [] before) :
    ∃ more, Settled earlier (settlements ++ more) [] after := by
  induction rounds generalizing settlements with
  | none => exact ⟨[], by rwa [List.append_nil]⟩
  | @next _ path _ _ _ before _ _ visited _ induction =>
      cases known : before.store.contains path with
      | true =>
          rw [visit_of_contains host.transcribed known] at visited
          cases visited
          exact induction settled
      | false =>
          rcases visit_settled host settled known with
            ⟨settlement, _, performed, _, _, visitedSettled⟩ | ⟨_, _, _, _, performed, _⟩
          · rw [performed] at visited
            cases visited
            obtain ⟨more, settledAfter⟩ := induction visitedSettled
            rw [List.append_assoc] at settledAfter
            exact ⟨settlement :: more, settledAfter⟩
          · rw [performed] at visited
            cases visited

/-- A state has no two ways of being settled of which one asked for one path more. -/
theorem Settled.not_unread {others : List Settlement} {path : Text} {reply : Reply}
    (settled : Settled [] settlements [] state) : ¬Settled [] others [⟨.fetch path, reply⟩] state := by
  intro halted
  have sameDocuments := settled.documents.symm.trans halted.documents
  have fetched : settlements.map Settlement.path = others.map Settlement.path ++ [path] := by
    rw [← filterMap_fetchedPath?_exchanges, ← filterMap_fetchedPath?_exchanges,
      ← List.append_nil (settlements.flatMap _), ← settled.transcript_eq, halted.transcript_eq,
      List.filterMap_append]
    rfl
  have lengths := congrArg List.length sameDocuments
  have more := congrArg List.length fetched
  simp only [List.length_map, List.length_append, List.length_singleton] at lengths more
  omega

/-- A crawl that stops between two documents has made as many visits as it may. -/
theorem rounds_of_unending {host : Host σ} {bound : Nat} {entry : Text} {initial : σ}
    (settled : Settled [] settlements [] state)
    (failed : perform (crawl bound host.transcribed entry) (.start (initial, [])) =
      (.error (.fault .unending), state)) :
    ∃ path left,
      Rounds host.transcribed bound [entry] (.start (initial, [])) (path :: left) state := by
  rcases rounds_of_visitAll (visitAll_of_crawl failed) with
    exhausted | ⟨count, path, left, middle, rounds, fails⟩
  · exact exhausted
  · -- A visit that fails so has asked for a text that is not settled.
    obtain ⟨more, settledMiddle⟩ := rounds.settled (settled_start initial)
    exfalso
    cases known : middle.store.contains path with
    | true =>
        rw [visit_of_contains host.transcribed known] at fails
        cases fails
    | false =>
        rcases visit_settled host settledMiddle known with
          ⟨_, _, performed, _⟩ | ⟨others, failure, tail, after, performed, halted, haltsAt⟩
        · rw [performed] at fails
          cases fails
        · rw [performed] at fails
          cases fails
          cases haltsAt with
          | unread _ => exact settled.not_unread halted
          | inside _ inside =>
              cases inside with
              | unresolved _ _ failed => exact resolveFailure?_ne_fault failed

/-- A crawl that may visit a path asks for something. -/
theorem asks_of_crawl {host : Host σ} {bound : Nat} {entry : Text} {initial : σ}
    {result : Except Failure Unit} (room : 0 < bound)
    (performed : perform (crawl bound host.transcribed entry) (.start (initial, [])) =
      (result, state))
    (settled : Settled [] settlements tail state)
    (ending : result = .ok ⟨⟩ ∧ settlements ≠ [] ∨
      ∃ failure, result = .error failure ∧ Halts settlements tail failure) :
    state.host.2 ≠ [] := by
  rw [settled.transcript_eq]
  intro nothing
  obtain ⟨noSettlement, rfl⟩ := List.append_eq_nil_iff.mp nothing
  have noneSettled : settlements = [] := by
    cases settlements with
    | nil => rfl
    | cons settlement others => cases noSettlement
  subst noneSettled
  rcases ending with ⟨_, impossible⟩ | ⟨failure, rfl, halts⟩
  · exact impossible rfl
  · have isUnending : failure = .fault .unending := by
      generalize noTail : ([] : List Exchange) = tail at halts
      generalize none : ([] : List Settlement) = settlements at halts
      cases halts with
      | unread => cases noTail
      | inside => simp at none
      | unending => rfl
    subst isUnending
    obtain ⟨path, left, rounds⟩ := rounds_of_unending settled performed
    obtain ⟨fewer, rfl⟩ := Nat.exists_eq_add_one.mpr room
    cases rounds with
    | next visited others =>
        -- The first visit settles the entry, and nothing takes that back.
        rcases visit_settled host (settled_start initial) rfl with
          ⟨settlement, _, visits, _, _, visitedSettled⟩ | ⟨_, _, _, _, visits, _⟩
        · rw [visits] at visited
          cases visited
          obtain ⟨more, settledAfter⟩ := others.settled visitedSettled
          cases settled.documents.symm.trans settledAfter.documents
        · rw [visits] at visited
          cases visited

/-! ## The trace of a crawl -/

theorem crawl_of_transcribed {host : Host σ} {bound : Nat} {entry : Text} {initial : σ}
    {result : Except Failure Unit}
    (performed : perform (crawl bound host.transcribed entry) (.start (initial, [])) =
      (result, state)) :
    perform (crawl bound host entry) (.start initial) = (result, state.mapHost Prod.fst) := by
  have same := crawl_follows host.transcribed_follows bound entry (.start (initial, []))
  rw [performed] at same
  exact same

theorem answers_of_transcribed {host : Host σ} {bound : Nat} {entry : Text} {initial : σ}
    {result : Except Failure Unit}
    (performed : perform (crawl bound host.transcribed entry) (.start (initial, [])) =
      (result, state)) : ∀ exchange ∈ state.host.2, host.Answers exchange := by
  intro exchange member
  have isAfter : transcribed bound host entry (.start initial) = (result, state) := performed
  apply answers_of_mem_transcript
  rwa [transcript, isAfter]

/-- Documents are numbered in order, and their imports come in source order. -/
theorem Settled.numbered (settled : Settled [] settlements tail state) :
    ∀ (index : Nat) (document : Document), state.store.documents[index]? = some document →
      document.number = index ∧ SitesIn document.source.text document.content.imports := by
  intro index document found
  refine ⟨settled.numbers index document found, ?_⟩
  have member := List.mem_of_getElem? found
  rw [settled.documents] at member
  obtain ⟨settlement, isSettlement, rfl⟩ := List.mem_map.mp member
  exact sitesIn_of_parseDocument (settled.sound settlement isSettlement).content

/-- The entry is the first that is asked for. -/
theorem fetch_of_begins {entry : Text} (settled : Settled [] settlements tail state)
    (begins : BeginsWith [entry] [] (settlements.flatMap Settlement.exchanges ++ tail)) :
    ∀ exchange others, state.host.2 = exchange :: others → exchange.call = .fetch entry := by
  intro exchange others same
  have transcript := settled.transcript_eq
  rw [same] at transcript
  exact begins entry [] rfl List.not_mem_nil exchange others transcript.symm

/-- The entry is the first that is stored. -/
theorem path_of_begins {entry : Text}
    (begins : BeginsWith [entry] [] (settlements.flatMap Settlement.exchanges ++ tail)) :
    ∀ settlement others, settlements = settlement :: others → settlement.path = entry := by
  rintro settlement others rfl
  have isFetch := begins entry [] rfl List.not_mem_nil _ _ rfl
  exact Call.fetch.inj isFetch

/-- What a crawl asks for, when it starts with nothing stored.

The transcript changes nothing else, and its replies are those of the host.  It consists of the
exchanges of the stored documents in order and of a tail.  If the crawl succeeds then there is no
tail, the entry is stored, all imports are resolved, and what they lead to is stored too; otherwise
`Halts` says what failed, with the request that failed as the tail, if there was one.  Without such a
request, a crawl lacks visits only if it has made as many as it may, and a path is left.  The entry
comes first, and a crawl that may make a visit at all asks for it; no path is fetched twice, documents
are numbered in order, the imports of a document come in source order, and each that the host is
asked about can be encoded. -/
theorem crawl_trace (host : Host σ) (bound : Nat) (entry : Text) (initial : σ) :
    ∃ settlements tail result after,
      perform (crawl bound host.transcribed entry) (.start (initial, [])) = (result, after) ∧
      perform (crawl bound host entry) (.start initial) = (result, after.mapHost Prod.fst) ∧
      after.store.documents = settlements.map Settlement.document ∧
      after.host.2 = settlements.flatMap Settlement.exchanges ++ tail ∧
      (∀ exchange ∈ after.host.2, host.Answers exchange) ∧
      (∀ settlement ∈ settlements, settlement.Sound) ∧
      (result = .ok ⟨⟩ ∧ tail = [] ∧ (∀ settlement ∈ settlements, settlement.Complete) ∧
          entry ∈ settlements.map Settlement.path ∧
          (∀ settlement ∈ settlements, ∀ target ∈ settlement.targets,
            target ∈ settlements.map Settlement.path) ∨
        ∃ failure, result = .error failure ∧ Halts settlements tail failure ∧
          (tail = [] → failure = .fault .unending → ∃ path left,
            Rounds host.transcribed bound [entry] (.start (initial, [])) (path :: left) after)) ∧
      (0 < bound → after.host.2 ≠ []) ∧
      (∀ exchange others, after.host.2 = exchange :: others → exchange.call = .fetch entry) ∧
      (∀ settlement others, settlements = settlement :: others → settlement.path = entry) ∧
      (after.host.2.filterMap fetchedPath?).Nodup ∧
      (∀ (index : Nat) (document : Document), after.store.documents[index]? = some document →
        document.number = index ∧ SitesIn document.source.text document.content.imports) ∧
      (∀ exchange ∈ after.host.2, ∀ resolution, exchange.call = .resolve resolution →
        resolution.written.isEncodable = true) := by
  rcases crawl_settled host (settled_start initial) (by simp) bound entry with
    ⟨settlements, after, performed, settled, grows, begins⟩ |
    ⟨settlements, failure, tail, after, performed, settled, halts, begins⟩
  · rw [List.nil_append] at settled
    rw [← List.append_nil (settlements.flatMap _)] at begins
    have visited := grows.visited entry List.mem_cons_self
    rw [List.nil_append] at visited
    have some : settlements ≠ [] := by
      rintro rfl
      cases visited
    exact ⟨settlements, [], _, after, performed, crawl_of_transcribed performed, settled.documents,
      settled.transcript, answers_of_transcribed performed, settled.sound,
      .inl ⟨rfl, rfl, grows.complete, visited, grows.closed⟩,
      fun room => asks_of_crawl room performed settled (.inl ⟨rfl, some⟩),
      fetch_of_begins settled begins, path_of_begins begins, nodup_fetched settled (.inl rfl),
      settled.numbered, encodable_of_resolve settled (.inl rfl)⟩
  · rw [List.nil_append] at settled halts
    refine ⟨settlements, tail, _, after, performed, crawl_of_transcribed performed,
      settled.documents, settled.transcript, answers_of_transcribed performed, settled.sound,
      .inr ⟨failure, rfl, halts, fun noTail isUnending => ?_⟩,
      fun room => asks_of_crawl room performed settled (.inr ⟨failure, rfl, halts⟩),
      fetch_of_begins settled begins, path_of_begins begins,
      nodup_fetched settled (.inr ⟨failure, halts⟩), settled.numbered,
      encodable_of_resolve settled (.inr ⟨failure, halts⟩)⟩
    subst noTail isUnending
    exact rounds_of_unending settled performed

theorem ok_of_isOk {result : Except Failure Unit} (isOk : result.isOk = true) :
    result = .ok ⟨⟩ := by
  cases result with
  | ok => rfl
  | error failure => cases isOk

/-- Two documents import a third one, and the first imports both of the others. -/
def diamond : Host Unit := .memory
  [("/a.cairn", "[import \"b.cairn\", import \"c.cairn\"]"), ("/b.cairn", "import \"c.cairn\""),
    ("/c.cairn", "1")]

/-- The import that comes last is followed first, and what both import is fetched once. -/
theorem crawl_trace_diamond :
    ∃ (settlements : List Settlement) (after : LoadState (Unit × List Exchange)),
      perform (crawl 4 diamond.transcribed "/a.cairn") (.start ((), [])) = (.ok ⟨⟩, after) ∧
      after.host.2 = settlements.flatMap Settlement.exchanges ∧
      settlements.map (fun settlement => (settlement.path, settlement.targets.length)) =
        ([("/a.cairn", 2), ("/c.cairn", 0), ("/b.cairn", 1)] : List (Text × Nat)) := by
  have succeeds : (perform (crawl 4 diamond.transcribed "/a.cairn") (.start ((), []))).1 = .ok ⟨⟩ :=
    ok_of_isOk (by decide +kernel)
  have stored : (perform (crawl 4 diamond.transcribed "/a.cairn")
      (.start ((), []))).2.store.documents.map
        (fun document => (document.path, document.content.imports.length)) =
        ([("/a.cairn", 2), ("/c.cairn", 0), ("/b.cairn", 1)] : List (Text × Nat)) := by
    decide +kernel
  obtain ⟨settlements, tail, result, after, performed, _, documents, transcript, _, _, ending, _⟩ :=
    crawl_trace diamond 4 "/a.cairn" ()
  rw [performed] at succeeds stored
  rcases ending with ⟨rfl, rfl, complete, _⟩ | ⟨failure, rfl, _⟩
  · rw [List.append_nil] at transcript
    refine ⟨settlements, after, performed, transcript, ?_⟩
    rw [documents, List.map_map] at stored
    rw [← stored]
    refine List.map_congr_left fun settlement member => ?_
    exact Prod.ext rfl (complete settlement member)
  · cases succeeds

end ConfigGraph.Load
