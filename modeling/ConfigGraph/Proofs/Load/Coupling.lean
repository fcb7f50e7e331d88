import ConfigGraph.Loading
import ConfigGraph.Proofs.Load.Perform

/-!
# Hosts that go together

A load does the same with two hosts that reply the same while their states go together.  A coupling
says which states those are.  It can ask for good states of the first host only: what a load of that
host comes to decides whether the other load has to do the same, so a state that is good must come of
good ones.
-/

namespace ConfigGraph.Load

variable {σ τ α β : Type}

/-- States of two loads that go together. -/
structure Coupling (σ τ : Type) where
  /-- The states of the first host up to which the other load has to do the same. -/
  Good : σ → Prop
  Pairs : LoadState σ → LoadState τ → Prop
  store_eq : ∀ {state other}, Pairs state other → other.store = state.store
  update : ∀ {state other}, Pairs state other → ∀ store entries,
    Pairs ⟨state.host, store, state.log ++ entries⟩ ⟨other.host, store, other.log ++ entries⟩

namespace Coupling

/-- From two states, a part of a load is mirrored by another one: if it comes to a good state and the
states before go together, then both have one result and leave states that go together. -/
structure Mirrors (coupling : Coupling σ τ) (part : Load σ α) (other : Load τ α)
    (state : LoadState σ) (otherState : LoadState τ) : Prop where
  good : coupling.Good (perform part state).2.host → coupling.Good state.host
  same : coupling.Good (perform part state).2.host → coupling.Pairs state otherState →
    (perform other otherState).1 = (perform part state).1 ∧
      coupling.Pairs (perform part state).2 (perform other otherState).2

/-- All requests to one host are mirrored by those to another one. -/
structure Hosts (coupling : Coupling σ τ) (host : Host σ) (other : Host τ) : Prop where
  resolve : ∀ resolution state otherState,
    coupling.Mirrors (ask (host.resolve resolution)) (ask (other.resolve resolution)) state
      otherState
  fetch : ∀ path state otherState,
    coupling.Mirrors (ask (host.fetch path)) (ask (other.fetch path)) state otherState

variable {coupling : Coupling σ τ} {state : LoadState σ} {otherState : LoadState τ}

theorem Mirrors.bind {part : Load σ α} {other : Load τ α} {next : α → Load σ β}
    {otherNext : α → Load τ β} (first : coupling.Mirrors part other state otherState)
    (second : ∀ value after otherAfter,
      coupling.Mirrors (next value) (otherNext value) after otherAfter) :
    coupling.Mirrors (part >>= next) (other >>= otherNext) state otherState := by
  obtain ⟨good, same⟩ := first
  rcases performed : perform part state with ⟨failure | value, after⟩
  · rw [performed] at good same
    constructor
    · rw [perform_bind, performed]
      exact good
    · rw [perform_bind, performed, perform_bind]
      intro isGood pairs
      obtain ⟨sameResult, sameAfter⟩ := same isGood pairs
      rcases otherPerformed : perform other otherState with ⟨_ | _, otherAfter⟩
      · rw [otherPerformed] at sameResult sameAfter
        cases sameResult
        exact ⟨rfl, sameAfter⟩
      · rw [otherPerformed] at sameResult
        cases sameResult
  · rw [performed] at good same
    constructor
    · rw [perform_bind, performed]
      exact fun isGood => good ((second value after otherState).good isGood)
    · rw [perform_bind, performed, perform_bind]
      intro isGood pairs
      obtain ⟨sameResult, sameAfter⟩ := same ((second value after otherState).good isGood) pairs
      rcases otherPerformed : perform other otherState with ⟨_ | otherValue, otherAfter⟩
      · rw [otherPerformed] at sameResult
        cases sameResult
      · rw [otherPerformed] at sameResult sameAfter
        cases sameResult
        exact (second value after otherAfter).same isGood sameAfter

/-- A part that depends on the store alone and makes no request. -/
theorem mirrors_of_update {part : Load σ α} {other : Load τ α} (result : Except Failure α)
    (store : Store) (entries : List LogEntry)
    (performed : perform part state = (result, ⟨state.host, store, state.log ++ entries⟩))
    (otherPerformed : otherState.store = state.store →
      perform other otherState = (result, ⟨otherState.host, store, otherState.log ++ entries⟩)) :
    coupling.Mirrors part other state otherState := by
  constructor
  · rw [performed]
    exact id
  · intro _ pairs
    rw [performed, otherPerformed (coupling.store_eq pairs)]
    exact ⟨rfl, coupling.update pairs store entries⟩

theorem mirrors_pure (value : α) :
    coupling.Mirrors (pure value) (pure value) state otherState := by
  refine mirrors_of_update (.ok value) state.store [] ?_ fun sameStore => ?_
  · rw [List.append_nil]
    rfl
  · rw [List.append_nil, ← sameStore]
    rfl

theorem mirrors_throw (failure : Failure) :
    coupling.Mirrors (throw failure : Load σ α) (throw failure) state otherState := by
  refine mirrors_of_update (.error failure) state.store [] ?_ fun sameStore => ?_
  · rw [List.append_nil]
    rfl
  · rw [List.append_nil, ← sameStore]
    rfl

theorem mirrors_liftExcept (result : Except Failure α) :
    coupling.Mirrors (liftExcept result : Load σ α) (liftExcept result) state otherState := by
  cases result with
  | ok value => exact mirrors_pure value
  | error failure => exact mirrors_throw failure

theorem mirrors_report (entry : LogEntry) :
    coupling.Mirrors (report entry) (report entry) state otherState := by
  refine mirrors_of_update (.ok ⟨⟩) state.store [entry] rfl fun sameStore => ?_
  rw [← sameStore]
  rfl

theorem mirrors_change (change : Store → Store) :
    coupling.Mirrors (modify fun state => { state with store := change state.store })
      (modify fun state => { state with store := change state.store }) state otherState := by
  refine mirrors_of_update (.ok ⟨⟩) (change state.store) [] ?_ fun sameStore => ?_
  · rw [List.append_nil]
    rfl
  · rw [List.append_nil, ← sameStore]
    rfl

/-- What follows a look at the store. -/
theorem Mirrors.get {next : LoadState σ → Load σ β} {otherNext : LoadState τ → Load τ β}
    (second : ∀ other, other.store = state.store →
      coupling.Mirrors (next state) (otherNext other) state other) :
    coupling.Mirrors (MonadState.get >>= next) (MonadState.get >>= otherNext) state otherState :=
  ⟨(second ⟨otherState.host, state.store, otherState.log⟩ rfl).good,
    fun isGood pairs => (second otherState (coupling.store_eq pairs)).same isGood pairs⟩

/-! ## The parts of a load -/

section

variable {host : Host σ} {other : Host τ} (hosts : coupling.Hosts host other)

include hosts

theorem mirrors_fetchText (path : Text) :
    coupling.Mirrors (fetchText host path) (fetchText other path) state otherState := by
  refine .bind (hosts.fetch path state otherState) fun reply after otherAfter => ?_
  cases reply with
  | answer text => exact mirrors_pure text
  | refused error => exact mirrors_throw _
  | broken reason => exact mirrors_throw _

theorem mirrors_readDocument (path : Text) :
    coupling.Mirrors (readDocument host path) (readDocument other path) state otherState := by
  unfold readDocument
  refine .bind (mirrors_report _) fun _ _ _ => ?_
  refine .bind (mirrors_fetchText hosts path) fun text _ _ => ?_
  refine .bind (mirrors_liftExcept _) fun content after otherAfter => ?_
  cases added : after.store.add ⟨path, text⟩ (.ofPath path) content with
  | ok found =>
      refine mirrors_of_update (.ok found.1) found.2 [] ?_ fun sameStore => ?_
      · rw [perform_bind, perform_get, List.append_nil]
        dsimp only
        rw [added]
        rfl
      · rw [perform_bind, perform_get, List.append_nil]
        dsimp only
        rw [sameStore, added]
        rfl
  | error fault =>
      refine mirrors_of_update (.error (.fault (.internal fault))) after.store [] ?_
        fun sameStore => ?_
      · rw [perform_bind, perform_get, List.append_nil]
        dsimp only
        rw [added]
        rfl
      · rw [perform_bind, perform_get, List.append_nil]
        dsimp only
        rw [sameStore, added, ← sameStore]
        rfl

theorem mirrors_resolvePath (owner : Text) (range : Range) (written : Text) :
    coupling.Mirrors (resolvePath host owner range written) (resolvePath other owner range written)
      state otherState := by
  refine .bind (hosts.resolve _ state otherState) fun reply after otherAfter => ?_
  cases reply with
  | answer target => exact mirrors_pure target
  | refused error => exact mirrors_throw _
  | broken reason => exact mirrors_throw _

theorem mirrors_resolveImport (owner : Text) (range : Range) (site : Expr.ImportSite) :
    coupling.Mirrors (resolveImport host owner range site) (resolveImport other owner range site)
      state otherState := by
  unfold resolveImport
  cases site.path.isEncodable with
  | false => exact mirrors_throw _
  | true =>
      refine .bind (mirrors_resolvePath hosts owner range site.path) fun target _ _ => ?_
      refine .bind (mirrors_change fun store => store.recordImport ⟨owner, some site.span⟩ target)
        fun _ _ _ => ?_
      exact .bind (mirrors_report _) fun _ _ _ => mirrors_pure target

theorem mirrors_resolveImports (owner : Text) (cursor : Cursor) (sites : List Expr.ImportSite) :
    coupling.Mirrors (resolveImports host owner cursor sites)
      (resolveImports other owner cursor sites) state otherState := by
  induction sites generalizing cursor state otherState with
  | nil => exact mirrors_pure []
  | cons site sites induction =>
      unfold resolveImports
      rcases cursor.range? (some site.span) with ⟨misstep | range, next⟩
      · exact mirrors_throw _
      · refine .bind (mirrors_resolveImport hosts owner range site) fun target after _ => ?_
        refine .get fun otherAfter sameStore => ?_
        rw [sameStore]
        exact .bind (induction next) fun others _ _ => mirrors_pure _

theorem mirrors_visit (path : Text) :
    coupling.Mirrors (visit host path) (visit other path) state otherState := by
  cases known : state.store.contains path with
  | true =>
      refine mirrors_of_update (.ok []) state.store [] ?_ fun sameStore => ?_
      · rw [visit_of_contains host known, List.append_nil]
      · rw [← sameStore] at known ⊢
        rw [visit_of_contains other known, List.append_nil]
  | false =>
      have reads : coupling.Mirrors
          (readDocument host path >>= fun document =>
            resolveImports host path (.ofText document.source.text) document.content.imports)
          (readDocument other path >>= fun document =>
            resolveImports other path (.ofText document.source.text) document.content.imports)
          state otherState :=
        .bind (mirrors_readDocument hosts path) fun document _ _ =>
          mirrors_resolveImports hosts path _ _
      constructor
      · rw [visit_of_new host known]
        exact reads.good
      · intro isGood pairs
        have alsoNew : otherState.store.contains path = false := by
          rw [coupling.store_eq pairs]
          exact known
        rw [visit_of_new host known] at isGood ⊢
        rw [visit_of_new other alsoNew]
        exact reads.same isGood pairs

theorem mirrors_visitAll (bound : Nat) (paths : List Text) :
    coupling.Mirrors (visitAll host bound paths) (visitAll other bound paths) state otherState := by
  induction bound generalizing paths state otherState with
  | zero =>
      cases paths with
      | nil => exact mirrors_pure ()
      | cons path paths => exact mirrors_throw _
  | succ bound induction =>
      cases paths with
      | nil => exact mirrors_pure ()
      | cons path paths => exact .bind (mirrors_visit hosts path) fun discovered _ _ => induction _

theorem mirrors_crawl (bound : Nat) (entry : Text) :
    coupling.Mirrors (crawl bound host entry) (crawl bound other entry) state otherState := by
  refine .bind (mirrors_visitAll hosts bound [entry]) fun _ after _ => .get ?_
  intro otherAfter sameStore
  rw [sameStore]
  exact mirrors_report _

theorem mirrors_load (limits : Limits) (entry : Text) :
    coupling.Mirrors (load limits host entry) (load limits other entry) state otherState := by
  refine .bind (mirrors_crawl hosts limits.visits entry) fun _ _ _ => .bind (.get ?_) ?_
  · intro otherAfter sameStore
    rw [sameStore]
    cases ((Evaluation.ofPath limits.depth _ entry).perform .start).1 with
    | ok value => exact mirrors_pure value
    | error failure => exact mirrors_throw failure
  · intro value after otherAfter
    cases value.toJson with
    | error error => exact mirrors_throw _
    | ok json =>
        refine .get fun otherAfter sameStore => ?_
        rw [sameStore]
        exact .bind (mirrors_report _) fun _ _ _ => mirrors_pure json

end

end Coupling

end ConfigGraph.Load
