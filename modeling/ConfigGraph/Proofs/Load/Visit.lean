import ConfigGraph.Proofs.Load.Steps
import Mathlib.Logic.Relation

/-!
# Visiting paths

A visit settles one document, and a crawl goes on until no path is left.  When it is through, every
path that it was given and every path to which an import leads is settled, and nothing else is
(`Grows`).
-/

namespace ConfigGraph.Load

variable {σ : Type} {earlier : List Exchange} {settlements : List Settlement}
  {state : LoadState (σ × List Exchange)}

/-! ## One visit -/

/-- What a visit that halts has settled and asked for, and the failure. -/
inductive HaltsAt (path : Text) (settlements : List Settlement) :
    List Settlement → List Exchange → Failure → Prop where
  | unread {reply : Reply} {failure : Failure} :
      readFailure? path reply = some failure →
      HaltsAt path settlements settlements [⟨.fetch path, reply⟩] failure
  | inside {last : Settlement} {tail : List Exchange} {failure : Failure} :
      last.path = path →
      HaltsInside last tail failure →
      HaltsAt path settlements (settlements ++ [last]) tail failure

/-- A crawl halts with its visit. -/
theorem HaltsAt.halts {path : Text} {others : List Settlement} {tail : List Exchange}
    {failure : Failure} (haltsAt : HaltsAt path settlements others tail failure)
    (complete : ∀ settlement ∈ settlements, settlement.Complete)
    (new : path ∉ settlements.map Settlement.path) : Halts others tail failure := by
  cases haltsAt with
  | unread failed => exact .unread complete new failed
  | inside _ halts => exact .inside complete halts

/-- A visit to a path that is not stored. -/
theorem visit_settled (host : Host σ) (settled : Settled earlier settlements [] state)
    {path : Text} (new : state.store.contains path = false) :
    (∃ settlement after,
      perform (visit host.transcribed path) state =
        (.ok (unknown after.store settlement.targets), after) ∧
      settlement.path = path ∧ settlement.Complete ∧
      Settled earlier (settlements ++ [settlement]) [] after) ∨
    (∃ others failure tail after,
      perform (visit host.transcribed path) state = (.error failure, after) ∧
      Settled earlier others tail after ∧ HaltsAt path settlements others tail failure) := by
  rw [visit_of_new host.transcribed new, perform_bind]
  rcases readDocument_settled host settled new with
    ⟨document, middle, performed, rfl, read⟩ | ⟨failure, reply, after, performed, failed, halted⟩
  · have sound := read.sound ⟨document, []⟩ (List.mem_append_right _ List.mem_cons_self)
    have sitesIn := sitesIn_of_parseDocument sound.content
    simp only [performed]
    rw [Cursor.ofText_eq_reaching]
    rcases resolveImports_settled host read [] rfl rfl sitesIn
        (fun _ _ => Nat.zero_le _) with
      ⟨targets, after, resolved, length, settledAfter⟩ |
      ⟨targets, failure, tail, after, resolved, halted, halts⟩
    · have sameDocuments : after.store.documents = middle.store.documents := by
        rw [settledAfter.documents, read.documents]
        simp
      have sameUnknown : unknown middle.store targets = unknown after.store targets := by
        simp only [unknown, Store.contains, sameDocuments]
      rw [sameUnknown] at resolved
      exact .inl ⟨⟨document, targets⟩, after, resolved, rfl, length, settledAfter⟩
    · exact .inr ⟨_, failure, tail, after, resolved, halted, .inside rfl halts⟩
  · refine .inr ⟨settlements, failure, _, after, ?_, halted, .unread failed⟩
    simp only [performed]

/-! ## How visits go on -/

/-- How visits to paths settle one document after another: what is settled in the end, what the
transcript has behind that, and the result. -/
inductive Unfolds : List Settlement → List Text → List Settlement → List Exchange →
    Except Failure Unit → Prop where
  | done {settlements : List Settlement} : Unfolds settlements [] settlements [] (.ok ⟨⟩)
  /-- The bound on the number of visits. -/
  | unending {settlements : List Settlement} {path : Text} {paths : List Text} :
      Unfolds settlements (path :: paths) settlements [] (.error (.fault .unending))
  /-- The path was settled after it was put into the list. -/
  | known {settlements last : List Settlement} {path : Text} {paths : List Text}
      {tail : List Exchange} {result : Except Failure Unit} :
      path ∈ settlements.map Settlement.path →
      Unfolds settlements paths last tail result →
      Unfolds settlements (path :: paths) last tail result
  /-- The paths that were discovered come next, and the others behind them. -/
  | visit {settlements last : List Settlement} {settlement : Settlement} {paths : List Text}
      {tail : List Exchange} {result : Except Failure Unit} :
      settlement.path ∉ settlements.map Settlement.path →
      settlement.Complete →
      Unfolds (settlements ++ [settlement])
        ((settlement.targets.filter fun target =>
          target ∉ (settlements ++ [settlement]).map Settlement.path).reverse ++ paths)
        last tail result →
      Unfolds settlements (settlement.path :: paths) last tail result
  | halt {settlements others : List Settlement} {path : Text} {paths : List Text}
      {tail : List Exchange} {failure : Failure} :
      path ∉ settlements.map Settlement.path →
      HaltsAt path settlements others tail failure →
      Unfolds settlements (path :: paths) others tail (.error failure)

theorem Settled.unknown_eq {tail : List Exchange} (settled : Settled earlier settlements tail state)
    (targets : List Text) :
    unknown state.store targets =
      targets.filter fun target => target ∉ settlements.map Settlement.path := by
  apply List.filter_congr
  intro target _
  rw [Bool.eq_iff_iff, decide_eq_true_iff, ← settled.contains_iff]
  simp

/-- Visiting the paths that are left. -/
theorem visitAll_unfolds (host : Host σ) (settled : Settled earlier settlements [] state)
    (bound : Nat) (paths : List Text) :
    ∃ last tail result after,
      perform (visitAll host.transcribed bound paths) state = (result, after) ∧
      Settled earlier last tail after ∧ Unfolds settlements paths last tail result := by
  induction bound generalizing settlements paths state with
  | zero =>
      cases paths with
      | nil => exact ⟨settlements, [], _, state, rfl, settled, .done⟩
      | cons path paths => exact ⟨settlements, [], _, state, rfl, settled, .unending⟩
  | succ bound induction =>
      cases paths with
      | nil => exact ⟨settlements, [], _, state, rfl, settled, .done⟩
      | cons path paths =>
          unfold visitAll
          rw [perform_bind]
          cases known : state.store.contains path with
          | true =>
              rw [visit_of_contains host.transcribed known]
              obtain ⟨last, tail, result, after, performed, settledAfter, unfolds⟩ :=
                induction settled paths
              exact ⟨last, tail, result, after, performed, settledAfter,
                .known (settled.contains_iff.mp known) unfolds⟩
          | false =>
              have new : path ∉ settlements.map Settlement.path := by
                rw [← settled.contains_iff, known]
                exact Bool.false_ne_true
              rcases visit_settled host settled known with
                ⟨settlement, middle, performed, rfl, complete, visited⟩ |
                ⟨others, failure, tail, after, performed, halted, haltsAt⟩
              · rw [performed, visited.unknown_eq]
                obtain ⟨last, tail, result, after, goesOn, settledAfter, unfolds⟩ :=
                  induction visited _
                exact ⟨last, tail, result, after, goesOn, settledAfter,
                  .visit new complete unfolds⟩
              · rw [performed]
                exact ⟨others, tail, _, after, rfl, halted, .halt new haltsAt⟩

/-! ## All visits -/

/-- An import of one document leads to another one. -/
def Leads (settlements : List Settlement) (owner target : Text) : Prop :=
  ∃ settlement ∈ settlements, settlement.path = owner ∧ target ∈ settlement.targets

theorem Leads.mono {settlements others : List Settlement} (subset : settlements ⊆ others)
    {owner target : Text} (leads : Leads settlements owner target) : Leads others owner target := by
  obtain ⟨settlement, member, isOwner, isTarget⟩ := leads
  exact ⟨settlement, subset member, isOwner, isTarget⟩

/-- What visits to paths add when they are through. -/
structure Grows (paths : List Text) (settlements more : List Settlement) : Prop where
  complete : ∀ settlement ∈ more, settlement.Complete
  visited : ∀ path ∈ paths, path ∈ (settlements ++ more).map Settlement.path
  closed : ∀ settlement ∈ more, ∀ target ∈ settlement.targets,
    target ∈ (settlements ++ more).map Settlement.path
  reached : ∀ settlement ∈ more, ∃ path ∈ paths,
    Relation.ReflTransGen (Leads more) path settlement.path

theorem grows_nil (settlements : List Settlement) : Grows [] settlements [] :=
  ⟨by simp, by simp, by simp, by simp⟩

/-- A path that is settled already. -/
theorem Grows.known {path : Text} {paths : List Text} {settlements more : List Settlement}
    (grows : Grows paths settlements more) (known : path ∈ settlements.map Settlement.path) :
    Grows (path :: paths) settlements more := by
  refine ⟨grows.complete, ?_, grows.closed, ?_⟩
  · refine List.forall_mem_cons.mpr ⟨?_, grows.visited⟩
    rw [List.map_append]
    exact List.mem_append_left _ known
  · intro settlement member
    obtain ⟨start, isPath, leads⟩ := grows.reached settlement member
    exact ⟨start, List.mem_cons_of_mem _ isPath, leads⟩

/-- A path that is new, and then those to which its imports lead. -/
theorem Grows.visit {paths discovered : List Text} {settlements more : List Settlement}
    {settlement : Settlement} (complete : settlement.Complete)
    (isTarget : ∀ target ∈ discovered, target ∈ settlement.targets)
    (others : ∀ target ∈ settlement.targets, target ∉ discovered →
      target ∈ (settlements ++ [settlement]).map Settlement.path)
    (grows : Grows (discovered ++ paths) (settlements ++ [settlement]) more) :
    Grows (settlement.path :: paths) settlements (settlement :: more) := by
  have whole : settlements ++ settlement :: more = (settlements ++ [settlement]) ++ more := by simp
  have subset : more ⊆ settlement :: more := List.subset_cons_self _ _
  constructor
  · exact List.forall_mem_cons.mpr ⟨complete, grows.complete⟩
  · rw [whole]
    refine List.forall_mem_cons.mpr ⟨?_, ?_⟩
    · simp
    · intro path member
      exact grows.visited path (List.mem_append_right _ member)
  · rw [whole]
    refine List.forall_mem_cons.mpr ⟨?_, grows.closed⟩
    intro target member
    by_cases isNew : target ∈ discovered
    · exact grows.visited target (List.mem_append_left _ isNew)
    · rw [List.map_append]
      exact List.mem_append_left _ (others target member isNew)
  · refine List.forall_mem_cons.mpr ⟨?_, ?_⟩
    · exact ⟨_, List.mem_cons_self, .refl⟩
    · intro other member
      obtain ⟨start, isStart, leads⟩ := grows.reached other member
      have further := Relation.ReflTransGen.mono (fun _ _ => Leads.mono subset) _ _ leads
      rcases List.mem_append.mp isStart with isDiscovered | isPath
      · refine ⟨_, List.mem_cons_self, .head ?_ further⟩
        exact ⟨settlement, List.mem_cons_self, rfl, isTarget start isDiscovered⟩
      · exact ⟨start, List.mem_cons_of_mem _ isPath, further⟩

/-- Visits ask first for the text of the first path, unless that is settled. -/
def BeginsWith (paths : List Text) (settlements : List Settlement) (exchanges : List Exchange) :
    Prop :=
  ∀ path others, paths = path :: others → path ∉ settlements.map Settlement.path →
    ∀ exchange rest, exchanges = exchange :: rest → exchange.call = .fetch path

theorem beginsWith_nil (paths : List Text) (settlements : List Settlement) :
    BeginsWith paths settlements [] := by
  intro path others _ _ exchange rest same
  cases same

theorem beginsWith_known {path : Text} {paths : List Text} {settlements : List Settlement}
    (known : path ∈ settlements.map Settlement.path) (exchanges : List Exchange) :
    BeginsWith (path :: paths) settlements exchanges := by
  intro other others same isNew
  cases same
  exact absurd known isNew

theorem beginsWith_visit {path : Text} {paths : List Text} {settlements : List Settlement}
    {exchange : Exchange} (isFetch : exchange.call = .fetch path) (exchanges : List Exchange) :
    BeginsWith (path :: paths) settlements (exchange :: exchanges) := by
  intro other others same _ first rest isFirst
  cases same
  cases isFirst
  exact isFetch

/-- When visits are through all is settled that they lead to, and otherwise they halt. -/
theorem Unfolds.grows_or_halts {paths : List Text} {last : List Settlement}
    {tail : List Exchange} {result : Except Failure Unit}
    (unfolds : Unfolds settlements paths last tail result)
    (complete : ∀ settlement ∈ settlements, settlement.Complete) :
    ∃ more, last = settlements ++ more ∧
      BeginsWith paths settlements (more.flatMap Settlement.exchanges ++ tail) ∧
      (result = .ok ⟨⟩ ∧ tail = [] ∧ Grows paths settlements more ∨
        ∃ failure, result = .error failure ∧ Halts last tail failure) := by
  induction unfolds with
  | @done settlements =>
      exact ⟨[], (List.append_nil _).symm, beginsWith_nil _ _, .inl ⟨rfl, rfl, grows_nil _⟩⟩
  | @unending settlements path paths =>
      exact ⟨[], (List.append_nil _).symm, beginsWith_nil _ _, .inr ⟨_, rfl, .unending complete⟩⟩
  | known isKnown _ induction =>
      obtain ⟨more, rfl, _, ⟨rfl, rfl, grows⟩ | halts⟩ := induction complete
      · exact ⟨more, rfl, beginsWith_known isKnown _, .inl ⟨rfl, rfl, grows.known isKnown⟩⟩
      · exact ⟨more, rfl, beginsWith_known isKnown _, .inr halts⟩
  | @visit settlements _ settlement paths _ _ _ isComplete _ induction =>
      have allComplete : ∀ other ∈ settlements ++ [settlement], other.Complete :=
        List.forall_mem_append.mpr ⟨complete, List.forall_mem_singleton.mpr isComplete⟩
      obtain ⟨more, rfl, _, ends⟩ := induction allComplete
      refine ⟨settlement :: more, by simp, beginsWith_visit rfl _, ?_⟩
      rcases ends with ⟨rfl, rfl, grows⟩ | halts
      · refine .inl ⟨rfl, rfl, Grows.visit isComplete ?_ ?_ grows⟩
        · intro target member
          exact List.mem_of_mem_filter (List.mem_reverse.mp member)
        · intro target member isKnown
          by_contra notSettled
          apply isKnown
          rw [List.mem_reverse, List.mem_filter]
          exact ⟨member, decide_eq_true notSettled⟩
      · exact .inr halts
  | @halt settlements _ path paths _ _ new haltsAt =>
      have halts := haltsAt.halts complete new
      cases haltsAt with
      | unread _ =>
          exact ⟨[], (List.append_nil _).symm, beginsWith_visit rfl _, .inr ⟨_, rfl, halts⟩⟩
      | @inside last _ _ isPath _ =>
          subst isPath
          exact ⟨[last], rfl, beginsWith_visit rfl _, .inr ⟨_, rfl, halts⟩⟩

/-! ## A crawl -/

theorem crawl_unfolds (host : Host σ) (settled : Settled earlier settlements [] state)
    (bound : Nat) (entry : Text) :
    ∃ last tail result after,
      perform (crawl bound host.transcribed entry) state = (result, after) ∧
      Settled earlier last tail after ∧ Unfolds settlements [entry] last tail result := by
  obtain ⟨last, tail, result, after, performed, settledAfter, unfolds⟩ :=
    visitAll_unfolds host settled bound [entry]
  unfold crawl
  rw [perform_bind, performed]
  cases result with
  | error failure => exact ⟨last, tail, _, after, rfl, settledAfter, unfolds⟩
  | ok =>
      refine ⟨last, tail, _, _, rfl, ?_, unfolds⟩
      exact ⟨settledAfter.documents, settledAfter.imports, settledAfter.transcript,
        settledAfter.numbers, settledAfter.distinct, settledAfter.sound⟩

theorem crawl_settled (host : Host σ) (settled : Settled earlier settlements [] state)
    (complete : ∀ settlement ∈ settlements, settlement.Complete) (bound : Nat) (entry : Text) :
    (∃ more after,
      perform (crawl bound host.transcribed entry) state = (.ok ⟨⟩, after) ∧
      Settled earlier (settlements ++ more) [] after ∧ Grows [entry] settlements more ∧
      BeginsWith [entry] settlements (more.flatMap Settlement.exchanges)) ∨
    (∃ more failure tail after,
      perform (crawl bound host.transcribed entry) state = (.error failure, after) ∧
      Settled earlier (settlements ++ more) tail after ∧
      Halts (settlements ++ more) tail failure ∧
      BeginsWith [entry] settlements (more.flatMap Settlement.exchanges ++ tail)) := by
  obtain ⟨last, tail, result, after, performed, settledAfter, unfolds⟩ :=
    crawl_unfolds host settled bound entry
  obtain ⟨more, rfl, begins, ⟨rfl, rfl, grows⟩ | ⟨failure, rfl, halts⟩⟩ :=
    unfolds.grows_or_halts complete
  · rw [List.append_nil] at begins
    exact .inl ⟨more, after, performed, settledAfter, grows, begins⟩
  · exact .inr ⟨more, failure, tail, after, performed, settledAfter, halts, begins⟩

end ConfigGraph.Load
