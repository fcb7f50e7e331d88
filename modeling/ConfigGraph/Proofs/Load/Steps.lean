import ConfigGraph.Proofs.Load.Settlement

/-!
# The parts of a crawl

What each part of a crawl does in a settled state.  Either it goes on to a settled state, or it
halts in one.
-/

namespace ConfigGraph.Load

variable {σ : Type} {earlier : List Exchange} {settlements : List Settlement}
  {state : LoadState (σ × List Exchange)}

/-! ## Reading a document -/

/-- The document that a text at a path is. -/
def newDocument (store : Store) (path text : Text) (content : Content) : Document :=
  ⟨⟨path, text⟩, .ofPath path, content, store.size⟩

theorem perform_readDocument (host : Host σ) {path : Text} {state : LoadState σ}
    (new : state.store.contains path = false) :
    ∃ log,
      (∃ text content, (host.fetch path state.host).reply = .answer text ∧
        parseDocument ⟨path, text⟩ (.ofPath path) = .ok content ∧
        perform (readDocument host path) state =
          (.ok (newDocument state.store path text content),
            ⟨(host.fetch path state.host).state,
              { state.store with
                documents := state.store.documents ++ [newDocument state.store path text content] },
              log⟩)) ∨
      (∃ failure, readFailure? path (host.fetch path state.host).reply = some failure ∧
        perform (readDocument host path) state =
          (.error failure, ⟨(host.fetch path state.host).state, state.store, log⟩)) := by
  refine ⟨state.log ++ [.fetching path (.ofPath path)] ++ (host.fetch path state.host).log, ?_⟩
  unfold readDocument
  simp only [perform_bind, perform_report, fetchText, perform_ask]
  cases (host.fetch path state.host).reply with
  | refused error => exact .inr ⟨_, rfl, rfl⟩
  | broken reason => exact .inr ⟨_, rfl, rfl⟩
  | answer text =>
      simp only [perform_pure, perform_liftExcept]
      cases parsed : parseDocument ⟨path, text⟩ (.ofPath path) with
      | error failure => exact .inr ⟨failure, by simp [readFailure?, parsed], rfl⟩
      | ok content =>
          refine .inl ⟨text, content, rfl, parsed, ?_⟩
          simp only [perform_get, Store.add, new]
          rfl

/-- A settled state in which a document was read whose imports come next. -/
theorem Settled.addDocument (settled : Settled earlier settlements [] state) {path text : Text}
    {content : Content} (new : state.store.contains path = false)
    (parsed : parseDocument ⟨path, text⟩ (.ofPath path) = .ok content) (log : List LogEntry)
    (hostState : σ) :
    Settled earlier (settlements ++ [⟨newDocument state.store path text content, []⟩]) []
      ⟨(hostState, state.host.2 ++ [⟨.fetch path, .answer text⟩]),
        { state.store with
          documents := state.store.documents ++ [newDocument state.store path text content] },
        log⟩ := by
  constructor
  · simp [settled.documents]
  · simp [settled.imports, Settlement.entries]
  · have transcript := settled.transcript
    simp only [List.append_nil] at transcript ⊢
    rw [← List.append_assoc, transcript, List.flatMap_append, List.flatMap_singleton]
    simp [Settlement.exchanges, newDocument, Document.path]
  · intro index document found
    rw [List.getElem?_append] at found
    split at found
    · exact settled.numbers index document found
    · rename_i outside
      cases position : index - state.store.documents.length with
      | zero =>
          rw [position] at found
          cases found
          simp only [newDocument, Store.size]
          omega
      | succ position =>
          rw [position] at found
          cases found
  · rw [List.map_append]
    refine Keys.nodup_behind settled.distinct fun isKnown => ?_
    have contained : state.store.contains path = true := settled.contains_iff.mpr isKnown
    rw [new] at contained
    cases contained
  · intro settlement member
    rcases List.mem_append.mp member with before | isLast
    · exact settled.sound settlement before
    · cases List.mem_singleton.mp isLast
      exact ⟨rfl, parsed, by simp, by simp⟩

theorem readDocument_settled (host : Host σ) (settled : Settled earlier settlements [] state)
    {path : Text} (new : state.store.contains path = false) :
    (∃ document after, perform (readDocument host.transcribed path) state = (.ok document, after) ∧
      document.path = path ∧ Settled earlier (settlements ++ [⟨document, []⟩]) [] after) ∨
    (∃ failure reply after,
      perform (readDocument host.transcribed path) state = (.error failure, after) ∧
      readFailure? path reply = some failure ∧
      Settled earlier settlements [⟨.fetch path, reply⟩] after) := by
  obtain ⟨log, ⟨text, content, reply, parsed, performed⟩ | ⟨failure, failed, performed⟩⟩ :=
    perform_readDocument host.transcribed new
  · have answered : (host.fetch path state.host.1).reply = .answer text := reply
    refine .inl ⟨_, _, performed, rfl, ?_⟩
    have added := settled.addDocument new parsed log (host.fetch path state.host.1).state
    rw [← answered] at added
    exact added
  · refine .inr ⟨failure, _, _, performed, failed, ?_⟩
    have transcript := settled.transcript
    rw [List.append_nil] at transcript
    refine ⟨settled.documents, settled.imports, ?_, settled.numbers, settled.distinct,
      settled.sound⟩
    simp only [Host.transcribed, Host.transcribe]
    rw [← List.append_assoc, transcript]

/-! ## Resolving an import -/

theorem putImport_of_absent {key : ImportKey} {target : Text} {entries : List (ImportKey × Text)}
    (absent : ∀ entry ∈ entries, entry.1 ≠ key) :
    Store.putImport key target entries = entries ++ [(key, target)] := by
  induction entries with
  | nil => rfl
  | cons entry entries induction =>
      obtain ⟨different, others⟩ := List.forall_mem_cons.mp absent
      rw [Store.putImport, if_neg different, induction others, List.cons_append]

/-- The next import of the last document has no entry yet. -/
theorem Settled.key_absent {document : Document} {targets : List Text} {tail : List Exchange}
    (settled : Settled earlier (settlements ++ [⟨document, targets⟩]) tail state)
    {site : Expr.ImportSite} (next : document.content.imports[targets.length]? = some site) :
    ∀ entry ∈ state.store.imports, entry.1 ≠ Settlement.key document site := by
  intro entry member same
  rw [settled.imports, List.flatMap_append, List.flatMap_singleton] at member
  -- An earlier document has another path, and an earlier import of this one another span.
  rcases List.mem_append.mp member with before | isLast
  · obtain ⟨settlement, isMember, isEntry⟩ := List.mem_flatMap.mp before
    obtain ⟨_, _, _, _, _, rfl⟩ := Settlement.mem_entries.mp isEntry
    have samePath : settlement.path = document.path := congrArg ImportKey.owner same
    have isKnown : settlement.path ∈ settlements.map Settlement.path :=
      List.mem_map_of_mem isMember
    rw [samePath] at isKnown
    exact Keys.notMem_of_nodup settled.distinct isKnown
  · obtain ⟨index, other, target, isSite, isTarget, rfl⟩ := Settlement.mem_entries.mp isLast
    have sound := settled.sound ⟨document, targets⟩ (List.mem_append_right _ List.mem_cons_self)
    have sites := sitesIn_of_parseDocument sound.content
    have sameSpan : other.span = site.span := Option.some.inj (congrArg ImportKey.span same)
    have sameIndex := sites.index_unique isSite next sameSpan
    obtain ⟨before, _⟩ := List.getElem?_eq_some_iff.mp isTarget
    rw [sameIndex] at before
    exact Nat.lt_irrefl _ before

/-- A settled state in which one more import of the last document is resolved. -/
theorem Settled.addTarget {document : Document} {targets : List Text}
    (settled : Settled earlier (settlements ++ [⟨document, targets⟩]) [] state)
    {site : Expr.ImportSite} (next : document.content.imports[targets.length]? = some site)
    (encodable : site.path.isEncodable = true) (target : Text) (log : List LogEntry)
    (hostState : σ) :
    Settled earlier (settlements ++ [⟨document, targets ++ [target]⟩]) []
      ⟨(hostState, state.host.2 ++ [Settlement.exchange document site target]),
        state.store.recordImport (Settlement.key document site) target, log⟩ := by
  constructor
  · have same := settled.documents
    rw [List.map_append] at same ⊢
    exact same
  · rw [Store.recordImport]
    dsimp only
    rw [putImport_of_absent (settled.key_absent next), settled.imports]
    simp only [List.flatMap_append, List.flatMap_singleton, List.append_assoc]
    congr 1
    simp only [Settlement.entries]
    rw [zipWith_append_singleton _ target next]
  · have transcript := settled.transcript
    simp only [List.append_nil, List.flatMap_append, List.flatMap_singleton] at transcript ⊢
    rw [← List.append_assoc, transcript, List.append_assoc]
    congr 1
    simp only [Settlement.exchanges, List.cons_append]
    rw [zipWith_append_singleton _ target next]
  · exact settled.numbers
  · have distinct := settled.distinct
    rw [List.map_append] at distinct ⊢
    exact distinct
  · intro settlement member
    rcases List.mem_append.mp member with before | isLast
    · exact settled.sound settlement (List.mem_append_left _ before)
    · cases List.mem_singleton.mp isLast
      obtain ⟨format, content, _, others⟩ :=
        settled.sound ⟨document, targets⟩ (List.mem_append_right _ List.mem_cons_self)
      obtain ⟨inside, isSite⟩ := List.getElem?_eq_some_iff.mp next
      refine ⟨format, content, ?_, ?_⟩
      · rw [List.length_append]
        exact inside
      intro other isTaken
      rw [List.length_append, List.length_singleton, List.take_succ_eq_append_getElem inside]
        at isTaken
      rcases List.mem_append.mp isTaken with earlierSite | isNext
      · exact others other earlierSite
      · rw [List.mem_singleton.mp isNext, isSite]
        exact encodable

/-- A settled state with a call at the end of its transcript that led to nothing. -/
theorem Settled.addCall (settled : Settled earlier settlements [] state) (exchange : Exchange)
    (log : List LogEntry) (hostState : σ) :
    Settled earlier settlements [exchange]
      ⟨(hostState, state.host.2 ++ [exchange]), state.store, log⟩ := by
  have transcript := settled.transcript
  rw [List.append_nil] at transcript
  refine ⟨settled.documents, settled.imports, ?_, settled.numbers, settled.distinct,
    settled.sound⟩
  rw [← List.append_assoc, transcript]

theorem resolveImport_settled (host : Host σ) {document : Document} {targets : List Text}
    (settled : Settled earlier (settlements ++ [⟨document, targets⟩]) [] state)
    {site : Expr.ImportSite} (next : document.content.imports[targets.length]? = some site) :
    (∃ target after,
      perform (resolveImport host.transcribed document.path
        (site.span.rangeIn document.source.text) site) state = (.ok target, after) ∧
      Settled earlier (settlements ++ [⟨document, targets ++ [target]⟩]) [] after) ∨
    (∃ failure tail after,
      perform (resolveImport host.transcribed document.path
        (site.span.rangeIn document.source.text) site) state = (.error failure, after) ∧
      Settled earlier (settlements ++ [⟨document, targets⟩]) tail after ∧
      HaltsInside ⟨document, targets⟩ tail failure) := by
  unfold resolveImport
  cases encodable : site.path.isEncodable with
  | false => exact .inr ⟨_, [], state, rfl, settled, .unencodable next encodable⟩
  | true =>
      simp only [Bool.not_true, Bool.false_eq_true, if_false, resolvePath, perform_bind,
        perform_pure, perform_ask, Host.transcribed, Host.transcribe]
      cases answered : (host.resolve
          ⟨site.path, site.span.rangeIn document.source.text, some document.path⟩
          state.host.1).reply with
      | answer target => exact .inl ⟨target, _, rfl, settled.addTarget next encodable target _ _⟩
      | refused error =>
          exact .inr ⟨_, _, _, rfl, settled.addCall _ _ _, .unresolved next encodable rfl⟩
      | broken reason =>
          exact .inr ⟨_, _, _, rfl, settled.addCall _ _ _, .unresolved next encodable rfl⟩

/-! ## Resolving all imports -/

/-- Paths that are not stored. -/
def unknown (store : Store) (targets : List Text) : List Text :=
  targets.filter fun target => !store.contains target

/-- Resolving the imports of the last document that are left, with a cursor before them. -/
theorem resolveImports_settled (host : Host σ) {document : Document} {targets : List Text}
    {offset : Nat}
    (settled : Settled earlier (settlements ++ [⟨document, targets⟩]) [] state)
    (before : List Expr.ImportSite) {sites : List Expr.ImportSite}
    (split : document.content.imports = before ++ sites)
    (length : before.length = targets.length) (sitesIn : SitesIn document.source.text sites)
    (ahead : ∀ site ∈ sites, offset ≤ site.span.start) :
    (∃ more after,
      perform (resolveImports host.transcribed document.path
        (.reaching document.source.text offset) sites) state =
          (.ok (unknown state.store more), after) ∧
      more.length = sites.length ∧
      Settled earlier (settlements ++ [⟨document, targets ++ more⟩]) [] after) ∨
    (∃ more failure tail after,
      perform (resolveImports host.transcribed document.path
        (.reaching document.source.text offset) sites) state = (.error failure, after) ∧
      Settled earlier (settlements ++ [⟨document, targets ++ more⟩]) tail after ∧
      HaltsInside ⟨document, targets ++ more⟩ tail failure) := by
  -- Each import that is resolved joins those before, and the cursor goes on to its end.
  induction sites generalizing before targets offset state with
  | nil => exact .inl ⟨[], state, rfl, rfl, by rw [List.append_nil]; exact settled⟩
  | cons site sites induction =>
      have next : document.content.imports[targets.length]? = some site := by
        rw [split, ← length, List.getElem?_append_right (Nat.le_refl _), Nat.sub_self]
        rfl
      have range := Cursor.range?_reaching (ahead site List.mem_cons_self)
        (sitesIn.span_inside List.mem_cons_self)
      obtain ⟨behindSite, ordered⟩ := List.pairwise_cons.mp sitesIn.ordered
      have rest : SitesIn document.source.text sites :=
        ⟨fun other member => sitesIn.inside other (List.mem_cons_of_mem _ member), ordered⟩
      unfold resolveImports
      simp only [range, perform_bind]
      rcases resolveImport_settled host settled next with
        ⟨target, after, performed, resolved⟩ | ⟨failure, tail, after, performed, halted, halts⟩
      · have sameDocuments : after.store.documents = state.store.documents := by
          rw [resolved.documents, settled.documents]
          simp
        have sameContains (path : Text) :
            after.store.contains path = state.store.contains path := by
          rw [Store.contains, sameDocuments, Store.contains]
        have splitNext : document.content.imports = (before ++ [site]) ++ sites := by
          rw [split, List.append_assoc, List.singleton_append]
        rcases induction resolved (before ++ [site]) splitNext (by simp [length]) rest
            behindSite with
          ⟨more, last, goesOn, moreLength, settledLast⟩ |
          ⟨more, failure, tail, last, goesOn, halted, halts⟩
        · refine .inl ⟨target :: more, last, ?_, by simp [moreLength], ?_⟩
          · simp only [performed, goesOn, perform_get, perform_pure, unknown, sameContains,
              List.filter_cons]
            cases state.store.contains target <;> rfl
          · rw [List.append_assoc] at settledLast
            exact settledLast
        · rw [List.append_assoc] at halted halts
          refine .inr ⟨target :: more, failure, tail, last, ?_, halted, halts⟩
          simp only [performed, goesOn, perform_get]
      · refine .inr ⟨[], failure, tail, after, ?_, ?_, ?_⟩
        · simp only [performed]
        · rw [List.append_nil]
          exact halted
        · rw [List.append_nil]
          exact halts

end ConfigGraph.Load
