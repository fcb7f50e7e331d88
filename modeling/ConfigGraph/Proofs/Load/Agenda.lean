import ConfigGraph.Proofs.Load.Agreement
import Mathlib.Data.Multiset.AddSub

/-!
# Crawls in any order

A crawl has an agenda: the paths that it has come upon, each as often as it came up, and its state.
Here a crawl can visit any of these paths next.  Between two visits all that is stored was given by
the host and was reached from the entry, and nothing that is reached is forgotten (`Surveyed`).
With a host that always answers the same, crawls in two orders either both succeed or both fail, and
if they succeed they store the same (`CrawlsTo.agree`).
-/

namespace ConfigGraph.Load

variable {σ : Type}

/-! ## Agendas -/

/-- The paths that a crawl has come upon and not visited, and its state. -/
structure Agenda (σ : Type) where
  pending : Multiset Text
  state : LoadState σ

/-- Before a crawl its entry is all that is to be visited. -/
def Agenda.start (entry : Text) (initial : σ) : Agenda σ := ⟨{entry}, .start initial⟩

/-- A visit to one of the paths, which goes off the agenda.  What it discovers goes onto it. -/
inductive Visits (host : Host σ) : Agenda σ → Agenda σ → Prop where
  | pick {path : Text} {rest : Multiset Text} {discovered : List Text}
      {before after : LoadState σ} :
      perform (visit host path) before = (.ok discovered, after) →
      Visits host ⟨path ::ₘ rest, before⟩ ⟨discovered + rest, after⟩

/-- How a crawl ends: there is nothing left to be visited, or a visit fails. -/
inductive Ends (host : Host σ) : Agenda σ → Except Failure Unit → LoadState σ → Prop where
  | done {state : LoadState σ} : Ends host ⟨0, state⟩ (.ok ⟨⟩) state
  | failed {path : Text} {rest : Multiset Text} {failure : Failure} {before after : LoadState σ} :
      perform (visit host path) before = (.error failure, after) →
      Ends host ⟨path ::ₘ rest, before⟩ (.error failure) after

/-- A crawl of an entry comes to a result, in some order of visits. -/
def CrawlsTo (host : Host σ) (entry : Text) (initial : σ) (result : Except Failure Unit)
    (after : LoadState σ) : Prop :=
  ∃ last, Relation.ReflTransGen (Visits host) (.start entry initial) last ∧
    Ends host last result after

/-- A crawl goes on until it ends. -/
theorem visits_or_ends (host : Host σ) (agenda : Agenda σ) :
    (∃ next, Visits host agenda next) ∨ ∃ result after, Ends host agenda result after := by
  obtain ⟨pending, state⟩ := agenda
  rcases pending.empty_or_exists_mem with rfl | ⟨path, member⟩
  · exact .inr ⟨_, _, .done⟩
  · obtain ⟨rest, rfl⟩ := Multiset.exists_cons_of_mem member
    rcases performed : perform (visit host path) state with ⟨failure | discovered, after⟩
    · exact .inr ⟨_, _, .failed performed⟩
    · exact .inl ⟨_, .pick performed⟩

/-! ## What holds between visits -/

/-- A path is settled or on the agenda. -/
def Known (settlements : List Settlement) (agenda : Agenda σ) (path : Text) : Prop :=
  path ∈ settlements.map Settlement.path ∨ path ∈ agenda.pending

/-- What holds between the visits of a crawl. -/
structure Surveyed (host : Host σ) (entry : Text) (settlements : List Settlement)
    (agenda : Agenda σ) : Prop where
  settled : ∃ exchanges : host.Answered,
    Settled [] settlements [] (agenda.state.mapHost fun initial => (initial, exchanges.1))
  given : ∀ settlement ∈ settlements, settlement.GivenBy host
  start : Known settlements agenda entry
  targets : ∀ settlement ∈ settlements, ∀ target ∈ settlement.targets,
    Known settlements agenda target
  reached : ∀ path, Known settlements agenda path →
    Relation.ReflTransGen (Leads settlements) entry path

theorem surveyed_start (host : Host σ) (entry : Text) (initial : σ) :
    Surveyed host entry [] (.start entry initial) := by
  refine ⟨⟨⟨[], List.forall_mem_nil _⟩, settled_start initial⟩, List.forall_mem_nil _,
    .inr (Multiset.mem_singleton_self entry), List.forall_mem_nil _, ?_⟩
  rintro path (isSettled | isPending)
  · cases isSettled
  · rw [Multiset.mem_singleton.mp isPending]

/-- A path that is settled already goes off the agenda. -/
theorem Surveyed.drop {host : Host σ} {entry path : Text} {settlements : List Settlement}
    {rest : Multiset Text} {state : LoadState σ}
    (surveyed : Surveyed host entry settlements ⟨path ::ₘ rest, state⟩)
    (isSettled : path ∈ settlements.map Settlement.path) :
    Surveyed host entry settlements ⟨rest, state⟩ := by
  have same (other : Text) : Known settlements (⟨path ::ₘ rest, state⟩ : Agenda σ) other ↔
      Known settlements (⟨rest, state⟩ : Agenda σ) other := by
    unfold Known
    rw [Multiset.mem_cons]
    constructor
    · rintro (known | rfl | known)
      · exact .inl known
      · exact .inl isSettled
      · exact .inr known
    · rintro (known | known)
      · exact .inl known
      · exact .inr (.inr known)
  obtain ⟨settled, given, isEntry, targets, reached⟩ := surveyed
  refine ⟨settled, given, (same entry).mp isEntry, ?_, fun other known => ?_⟩
  · intro settlement member target isTarget
    exact (same target).mp (targets settlement member target isTarget)
  · exact reached other ((same other).mpr known)

/-- A path is settled, and what it leads to goes onto the agenda unless it is settled. -/
theorem Surveyed.add {host : Host σ} {entry : Text} {settlements : List Settlement}
    {settlement : Settlement} {rest : Multiset Text} {before after : LoadState σ}
    (surveyed : Surveyed host entry settlements ⟨settlement.path ::ₘ rest, before⟩)
    (given : settlement.GivenBy host) {exchanges : host.Answered}
    (settled : Settled [] (settlements ++ [settlement]) []
      (after.mapHost fun initial => (initial, exchanges.1))) :
    Surveyed host entry (settlements ++ [settlement])
      ⟨unknown after.store settlement.targets + rest, after⟩ := by
  have subset : settlements ⊆ settlements ++ [settlement] := List.subset_append_left _ _
  have isLast : settlement ∈ settlements ++ [settlement] :=
    List.mem_append_right _ List.mem_cons_self
  have keeps (other : Text)
      (known : Known settlements (⟨settlement.path ::ₘ rest, before⟩ : Agenda σ) other) :
      Known (settlements ++ [settlement])
        (⟨unknown after.store settlement.targets + rest, after⟩ : Agenda σ) other := by
    rcases known with isSettled | isPending
    · rw [Known, List.map_append]
      exact .inl (List.mem_append_left _ isSettled)
    · rcases Multiset.mem_cons.mp isPending with rfl | isRest
      · exact .inl (List.mem_map_of_mem isLast)
      · exact .inr (Multiset.mem_add.mpr (.inr isRest))
  have further (other : Text)
      (known : Known settlements (⟨settlement.path ::ₘ rest, before⟩ : Agenda σ) other) :
      Relation.ReflTransGen (Leads (settlements ++ [settlement])) entry other :=
    Relation.ReflTransGen.mono (fun _ _ => Leads.mono subset) _ _ (surveyed.reached other known)
  have arrived := further settlement.path (.inr (Multiset.mem_cons_self _ _))
  refine ⟨⟨exchanges, settled⟩, ?_, keeps entry surveyed.start, ?_, ?_⟩
  · exact List.forall_mem_append.mpr ⟨surveyed.given, List.forall_mem_singleton.mpr given⟩
  · refine List.forall_mem_append.mpr ⟨fun other member target isTarget => ?_,
      List.forall_mem_singleton.mpr fun target isTarget => ?_⟩
    · exact keeps target (surveyed.targets other member target isTarget)
    · by_cases isNew : target ∈ unknown after.store settlement.targets
      · exact .inr (Multiset.mem_add.mpr (.inl isNew))
      · have isStored : after.store.contains target = true := by
          simpa [unknown, isTarget] using isNew
        exact .inl (settled.contains_iff.mp isStored)
  · rintro path (isSettled | isPending)
    · rw [List.map_append] at isSettled
      rcases List.mem_append.mp isSettled with isEarlier | isThis
      · exact further path (.inl isEarlier)
      · rw [List.mem_singleton.mp isThis]
        exact arrived
    · rcases Multiset.mem_add.mp isPending with isNew | isRest
      · have isTarget : path ∈ settlement.targets := List.mem_of_mem_filter isNew
        exact arrived.tail ⟨settlement, isLast, rfl, isTarget⟩
      · exact further path (.inr (Multiset.mem_cons_of_mem isRest))

/-- A visit keeps what holds between visits. -/
theorem Surveyed.visits {host : Host σ} {entry : Text} {settlements : List Settlement}
    {agenda next : Agenda σ} (surveyed : Surveyed host entry settlements agenda)
    (visits : Visits host agenda next) : ∃ others, Surveyed host entry others next := by
  obtain ⟨exchanges, settled⟩ := surveyed.settled
  cases visits with
  | @pick path rest discovered before after performed =>
      cases known : before.store.contains path with
      | true =>
          rw [visit_of_contains host known] at performed
          cases performed
          rw [Multiset.coe_nil, Multiset.zero_add]
          exact ⟨settlements, surveyed.drop (settled.contains_iff.mp known)⟩
      | false =>
          rcases visit_given host settled known with
            ⟨settlement, behind, more, visited, rfl, given, settledBehind⟩ |
            ⟨failure, behind, visited, _⟩
          · cases visited.symm.trans performed
            exact ⟨settlements ++ [settlement], surveyed.add given settledBehind⟩
          · cases visited.symm.trans performed

theorem Surveyed.run {host : Host σ} {entry : Text} {initial : σ} {last : Agenda σ}
    (run : Relation.ReflTransGen (Visits host) (.start entry initial) last) :
    ∃ settlements, Surveyed host entry settlements last := by
  induction run with
  | refl => exact ⟨[], surveyed_start host entry initial⟩
  | tail _ visits induction =>
      obtain ⟨settlements, surveyed⟩ := induction
      exact surveyed.visits visits

/-! ## Crawls that agree -/

section

variable {host : Host Unit} {entry : Text} {settlements others : List Settlement}
  {agenda : Agenda Unit} {state : LoadState Unit}

/-- What any crawl comes upon is settled by one that is done. -/
theorem Surveyed.mem_of_known (done : Surveyed host entry settlements ⟨0, state⟩)
    (surveyed : Surveyed host entry others agenda) {path : Text}
    (known : Known others agenda path) : path ∈ settlements.map Settlement.path := by
  have settledOf {path : Text} (known : Known settlements ⟨0, state⟩ path) :
      path ∈ settlements.map Settlement.path :=
    known.resolve_right (Multiset.notMem_zero path)
  have leads := surveyed.reached path known
  clear known
  induction leads with
  | refl => exact settledOf done.start
  | tail _ leads induction =>
      obtain ⟨other, isOther, rfl, isTarget⟩ := leads
      obtain ⟨settlement, member, samePath⟩ := List.mem_map.mp induction
      have alike := (done.given settlement member).alike (surveyed.given other isOther) samePath
      rw [← alike.targets] at isTarget
      exact settledOf (done.targets settlement member _ isTarget)

/-- What any crawl settles is settled alike by one that is done. -/
theorem Surveyed.alike (done : Surveyed host entry settlements ⟨0, state⟩)
    (surveyed : Surveyed host entry others agenda) :
    ∀ other ∈ others, ∃ settlement ∈ settlements, other.Alike settlement := by
  intro other isOther
  have known := done.mem_of_known surveyed (.inl (List.mem_map_of_mem isOther))
  obtain ⟨settlement, member, samePath⟩ := List.mem_map.mp known
  exact ⟨settlement, member,
    (surveyed.given other isOther).alike (done.given settlement member) samePath.symm⟩

/-- If one crawl is done then none fails. -/
theorem Surveyed.not_failed (done : Surveyed host entry settlements ⟨0, state⟩)
    (surveyed : Surveyed host entry others agenda) {failure : Failure} {after : LoadState Unit} :
    ¬Ends host agenda (.error failure) after := by
  intro ends
  obtain ⟨exchanges, settled⟩ := surveyed.settled
  cases ends with
  | @failed path rest _ before _ performed =>
      have known := done.mem_of_known surveyed (.inr (Multiset.mem_cons_self path rest))
      obtain ⟨settlement, member, rfl⟩ := List.mem_map.mp known
      cases isStored : before.store.contains settlement.path with
      | true =>
          rw [visit_of_contains host isStored] at performed
          cases performed
      | false =>
          rcases visit_given host settled isStored with
            ⟨_, _, _, visited, _, _, _⟩ | ⟨_, _, _, fails⟩
          · cases visited.symm.trans performed
          · exact fails.not_given (done.given settlement member)

/-- Two crawls that are done have stored the same. -/
theorem Surveyed.store_alike {otherState : LoadState Unit}
    (done : Surveyed host entry settlements ⟨0, state⟩)
    (otherDone : Surveyed host entry others ⟨0, otherState⟩) :
    state.store.Alike otherState.store ∧ state.store.Distinct ∧ otherState.store.Distinct := by
  obtain ⟨exchanges, settled⟩ := done.settled
  obtain ⟨otherExchanges, otherSettled⟩ := otherDone.settled
  exact ⟨settled.store_alike otherSettled (otherDone.alike done) (done.alike otherDone),
    settled.store_distinct, otherSettled.store_distinct⟩

/-- If a crawl succeeds in one order then it does so in every order, and stores the same. -/
theorem CrawlsTo.agree {result : Except Failure Unit} {after otherAfter : LoadState Unit}
    (crawls : CrawlsTo host entry () (.ok ⟨⟩) after)
    (otherCrawls : CrawlsTo host entry () result otherAfter) :
    result = .ok ⟨⟩ ∧ after.store.Alike otherAfter.store ∧ after.store.Distinct ∧
      otherAfter.store.Distinct := by
  obtain ⟨last, run, ends⟩ := crawls
  obtain ⟨otherLast, otherRun, otherEnds⟩ := otherCrawls
  obtain ⟨settlements, done⟩ := Surveyed.run run
  obtain ⟨others, surveyed⟩ := Surveyed.run otherRun
  cases ends with
  | done =>
      cases otherEnds with
      | done => exact ⟨rfl, done.store_alike surveyed⟩
      | failed performed => exact absurd (.failed performed) (done.not_failed surveyed)

end

end ConfigGraph.Load
