import ConfigGraph.Proofs.Evaluation.Alike
import ConfigGraph.Proofs.Load.Closure

/-!
# Hosts that always answer the same

A host without a state gives the same reply whenever it is asked the same.  So what a visit to a
path settles does not depend on what was visited before (`Settlement.GivenBy.alike`), and a path to
which one visit succeeds is one at which none fails (`FailsAt.not_given`).
-/

namespace ConfigGraph

/-- A host without a state gives one reply only. -/
theorem Host.Answers.unique {host : Host Unit} {call : Call} {reply other : Reply}
    (answers : host.Answers ⟨call, reply⟩) (otherAnswers : host.Answers ⟨call, other⟩) :
    reply = other := by
  obtain ⟨⟨⟩, isReply⟩ := answers
  obtain ⟨⟨⟩, isOther⟩ := otherAnswers
  cases call with
  | resolve resolution | fetch path =>
      dsimp only at isReply isOther
      rw [← isReply, ← isOther]
  | report notice => exact isReply.elim

namespace Load

variable {σ : Type}

/-! ## Settlements -/

namespace Settlement

/-- The document was read, and its imports resolved as far as they are, by the replies of a host. -/
structure AnsweredBy (host : Host σ) (settlement : Settlement) : Prop where
  sound : settlement.Sound
  answers : ∀ exchange ∈ settlement.exchanges, host.Answers exchange

/-- All imports of the document were resolved by the replies of a host. -/
structure GivenBy (host : Host σ) (settlement : Settlement) : Prop
    extends settlement.AnsweredBy host where
  complete : settlement.Complete

/-- Settlements that differ in the number of the document at most. -/
structure Alike (settlement other : Settlement) : Prop where
  reading : settlement.document.reading = other.document.reading
  targets : settlement.targets = other.targets

variable {settlement other : Settlement}

theorem AnsweredBy.target {host : Host σ} (answered : settlement.AnsweredBy host) {index : Nat}
    {site : Expr.ImportSite} {target : Text} (isSite : settlement.sites[index]? = some site)
    (isTarget : settlement.targets[index]? = some target) :
    host.Answers ⟨.resolve (settlement.document.resolution site), .answer target⟩ := by
  apply answered.answers
  exact Settlement.mem_exchanges.mpr (.inr ⟨index, site, target, isSite, isTarget, rfl⟩)

/-- What is read at a path depends on nothing else. -/
theorem AnsweredBy.reading {host : Host Unit} (answered : settlement.AnsweredBy host)
    (otherAnswered : other.AnsweredBy host) (samePath : settlement.path = other.path) :
    settlement.document.reading = other.document.reading := by
  obtain ⟨⟨⟨path, text⟩, format, content, number⟩, targets⟩ := settlement
  obtain ⟨⟨⟨otherPath, otherText⟩, otherFormat, otherContent, otherNumber⟩, otherTargets⟩ := other
  cases (samePath : path = otherPath)
  have fetched : host.Answers ⟨.fetch path, .answer text⟩ := answered.answers _ List.mem_cons_self
  have otherFetched : host.Answers ⟨.fetch path, .answer otherText⟩ :=
    otherAnswered.answers _ List.mem_cons_self
  cases fetched.unique otherFetched
  obtain rfl : format = .ofPath path := answered.sound.format
  obtain rfl : otherFormat = .ofPath path := otherAnswered.sound.format
  have parsed : parseDocument ⟨path, text⟩ (.ofPath path) = .ok content := answered.sound.content
  have otherParsed : parseDocument ⟨path, text⟩ (.ofPath path) = .ok otherContent :=
    otherAnswered.sound.content
  cases parsed.symm.trans otherParsed
  rfl

/-- Where the imports at a path lead depends on nothing else. -/
theorem GivenBy.alike {host : Host Unit} (given : settlement.GivenBy host)
    (otherGiven : other.GivenBy host) (samePath : settlement.path = other.path) :
    settlement.Alike other := by
  have reading := given.reading otherGiven.toAnsweredBy samePath
  refine ⟨reading, ?_⟩
  have sameSites : settlement.sites = other.sites := congrArg (·.2.2.imports) reading
  have sameLength : settlement.targets.length = other.targets.length := by
    rw [given.complete, otherGiven.complete, sameSites]
  apply List.ext_getElem sameLength
  intro index inside otherInside
  obtain ⟨site, isSite⟩ : ∃ site, settlement.sites[index]? = some site := by
    rw [given.complete] at inside
    exact ⟨_, List.getElem?_eq_getElem inside⟩
  have isOtherSite := isSite
  rw [sameSites] at isOtherSite
  have answers := given.target isSite (List.getElem?_eq_getElem inside)
  have otherAnswers := otherGiven.target isOtherSite (List.getElem?_eq_getElem otherInside)
  have sameSource : settlement.document.source = other.document.source := congrArg (·.1) reading
  unfold Document.resolution Document.path at answers otherAnswers
  rw [sameSource] at answers
  exact Reply.answer.inj (answers.unique otherAnswers)

theorem Alike.entries (alike : settlement.Alike other) : settlement.entries = other.entries := by
  have sameSites : settlement.sites = other.sites := congrArg (·.2.2.imports) alike.reading
  have samePath : settlement.path = other.path := congrArg (·.1.path) alike.reading
  unfold Settlement.entries key
  rw [sameSites, alike.targets, show settlement.document.path = other.document.path from samePath]

end Settlement

/-! ## Stores -/

section

variable {earlier : List Exchange} {settlements : List Settlement} {tail : List Exchange}
  {state : LoadState (σ × List Exchange)}

theorem Settled.store_distinct (settled : Settled earlier settlements tail state) :
    state.store.Distinct := by
  have distinct := settled.distinct
  unfold Store.Distinct
  rw [settled.documents, List.map_map]
  exact distinct

/-- The import table has the entries of the settlements. -/
theorem Settled.target?_eq_some_iff (settled : Settled earlier settlements tail state)
    {key : ImportKey} {target : Text} :
    state.store.target? key = some target ↔
      ∃ settlement ∈ settlements, (key, target) ∈ settlement.entries := by
  constructor
  · intro found
    obtain ⟨⟨_, _⟩, isFirst, rfl⟩ := Option.map_eq_some_iff.mp found
    obtain rfl : _ = key := by simpa using List.find?_some isFirst
    have member := List.mem_of_find?_eq_some isFirst
    rw [settled.imports] at member
    exact List.mem_flatMap.mp member
  · rintro ⟨settlement, member, isEntry⟩
    obtain ⟨index, site, _, isSite, isTarget, same⟩ := Settlement.mem_entries.mp isEntry
    cases same
    exact settled.target? member isSite isTarget

variable {τ : Type} {otherEarlier : List Exchange} {others : List Settlement}
  {otherTail : List Exchange} {otherState : LoadState (τ × List Exchange)}

/-- Settlements that are alike make stores that are alike. -/
theorem Settled.store_alike (settled : Settled earlier settlements tail state)
    (otherSettled : Settled otherEarlier others otherTail otherState)
    (covered : ∀ settlement ∈ settlements, ∃ other ∈ others, settlement.Alike other)
    (covers : ∀ other ∈ others, ∃ settlement ∈ settlements, other.Alike settlement) :
    state.store.Alike otherState.store := by
  have readings : (state.store.documents.map Document.reading).Nodup :=
    .of_map (·.1.path) (by rw [List.map_map]; exact settled.store_distinct)
  have otherReadings : (otherState.store.documents.map Document.reading).Nodup :=
    .of_map (·.1.path) (by rw [List.map_map]; exact otherSettled.store_distinct)
  constructor
  · rw [List.perm_ext_iff_of_nodup readings otherReadings, settled.documents,
      otherSettled.documents]
    simp only [List.map_map, List.mem_map]
    intro reading
    constructor
    · rintro ⟨settlement, member, rfl⟩
      obtain ⟨other, isOther, alike⟩ := covered settlement member
      exact ⟨other, isOther, alike.reading.symm⟩
    · rintro ⟨other, isOther, rfl⟩
      obtain ⟨settlement, member, alike⟩ := covers other isOther
      exact ⟨settlement, member, alike.reading.symm⟩
  · intro key
    apply Option.ext
    intro target
    rw [settled.target?_eq_some_iff, otherSettled.target?_eq_some_iff]
    constructor
    · rintro ⟨settlement, member, isEntry⟩
      obtain ⟨other, isOther, alike⟩ := covered settlement member
      exact ⟨other, isOther, alike.entries ▸ isEntry⟩
    · rintro ⟨other, isOther, isEntry⟩
      obtain ⟨settlement, member, alike⟩ := covers other isOther
      exact ⟨settlement, member, alike.entries ▸ isEntry⟩

end

/-! ## Visits -/

/-- The replies of a host let visits to a path fail: its text cannot be read, or one of its imports
cannot be resolved. -/
inductive FailsAt (host : Host σ) (path : Text) : Prop where
  | unread {reply : Reply} {failure : Failure} :
      host.Answers ⟨.fetch path, reply⟩ →
      readFailure? path reply = some failure →
      FailsAt host path
  | inside {last : Settlement} {tail : List Exchange} {failure : Failure} :
      last.path = path →
      last.AnsweredBy host →
      (∀ exchange ∈ tail, host.Answers exchange) →
      HaltsInside last tail failure →
      FailsAt host path

/-- Where a visit fails, none can succeed. -/
theorem FailsAt.not_given {host : Host Unit} {settlement : Settlement}
    (fails : FailsAt host settlement.path) : ¬settlement.GivenBy host := by
  intro given
  cases fails with
  | unread answers failed =>
      have fetched := given.answers _ List.mem_cons_self
      cases answers.unique fetched
      have parsed := given.sound.content
      rw [given.sound.format] at parsed
      simp only [readFailure?] at failed
      rw [show parseDocument ⟨settlement.path, settlement.document.source.text⟩ _ =
        .ok settlement.document.content from parsed] at failed
      cases failed
  | @inside last tail failure samePath answered answers halts =>
      have reading := answered.reading given.toAnsweredBy samePath
      have sameSites : last.sites = settlement.sites := congrArg (·.2.2.imports) reading
      have sameSource : last.document.source = settlement.document.source :=
        congrArg (·.1) reading
      cases halts with
      | unencodable next unencodable =>
          have isSite := List.mem_of_getElem? (sameSites ▸ next)
          have taken := given.sound.encodable
          rw [given.complete, List.take_length] at taken
          rw [taken _ isSite] at unencodable
          cases unencodable
      | @unresolved site reply _ next _ failed =>
          rw [sameSites] at next
          have isTarget := (List.getElem?_eq_some_iff.mp next).1
          rw [← given.complete] at isTarget
          have resolved := given.target next (List.getElem?_eq_getElem isTarget)
          have asked := answers _ List.mem_cons_self
          unfold Document.resolution Document.path at asked resolved
          rw [sameSource] at asked
          cases asked.unique resolved
          cases failed

/-- A visit to a path that is not stored settles it by the replies of the host, or fails where these
let every visit fail. -/
theorem visit_given (host : Host σ) {settlements : List Settlement} {exchanges : host.Answered}
    {state : LoadState σ}
    (settled : Settled [] settlements [] (state.mapHost fun initial => (initial, exchanges.1)))
    {path : Text} (new : state.store.contains path = false) :
    (∃ settlement after, ∃ more : host.Answered,
      perform (visit host path) state = (.ok (unknown after.store settlement.targets), after) ∧
      settlement.path = path ∧ settlement.GivenBy host ∧
      Settled [] (settlements ++ [settlement]) []
        (after.mapHost fun initial => (initial, more.1))) ∨
    (∃ failure after, perform (visit host path) state = (.error failure, after) ∧
      FailsAt host path) := by
  -- The visit with a transcript, and with the proof that the replies in it are those of the host.
  have follows := visit_follows host.transcribed_follows path
    (state.mapHost fun initial => (initial, exchanges.1))
  have attested := visit_follows host.attested_follows path
    (state.mapHost fun initial => (initial, exchanges))
  unfold FollowsIn at attested follows
  generalize (perform (visit host.attested path) _).2 = last at attested
  rcases visit_settled host settled new with
    ⟨settlement, after, visited, isPath, complete, settledAfter⟩ |
    ⟨others, failure, tail, after, visited, halted, haltsAt⟩
  · obtain rfl := (Prod.mk.inj (visited.symm.trans attested)).2
    rw [visited] at follows
    refine .inl ⟨settlement, last.mapHost Prod.fst, last.host.2, follows, isPath, ?_, settledAfter⟩
    have isLast : settlement ∈ settlements ++ [settlement] :=
      List.mem_append_right _ List.mem_cons_self
    refine ⟨⟨settledAfter.sound settlement isLast, fun exchange member => ?_⟩, complete⟩
    apply last.host.2.2
    rw [show last.host.2.1 = _ from settledAfter.transcript_eq, List.append_nil]
    exact List.mem_flatMap.mpr ⟨settlement, isLast, member⟩
  · obtain rfl := (Prod.mk.inj (visited.symm.trans attested)).2
    rw [visited] at follows
    refine .inr ⟨failure, last.mapHost Prod.fst, follows, ?_⟩
    have transcript : last.host.2.1 = others.flatMap Settlement.exchanges ++ tail :=
      halted.transcript_eq
    have answers : ∀ exchange ∈ others.flatMap Settlement.exchanges ++ tail,
        host.Answers exchange := by
      rw [← transcript]
      exact last.host.2.2
    have inTail := fun exchange member => answers exchange (List.mem_append_right _ member)
    cases haltsAt with
    | unread failed => exact .unread (inTail _ List.mem_cons_self) failed
    | @inside stopped _ _ isPath halts =>
        have isLast : stopped ∈ settlements ++ [stopped] :=
          List.mem_append_right _ List.mem_cons_self
        refine .inside isPath ⟨halted.sound stopped isLast, fun exchange member => ?_⟩ inTail halts
        exact answers exchange
          (List.mem_append_left _ (List.mem_flatMap.mpr ⟨stopped, isLast, member⟩))

end Load

end ConfigGraph
