import ConfigGraph.Proofs.Load.Trace

/-!
# What prompts a request

A crawl asks for the text of its entry and of paths that its host gave as an answer, and it resolves
imports of documents whose texts it has asked for.  So the transcript itself tells all paths that
matter to a crawl, and what passes along imports holds of all of them.
-/

namespace ConfigGraph.Load

variable {σ : Type} {settlements last : List Settlement} {paths : List Text} {tail : List Exchange}
  {result : Except Failure Unit}

/-- Every text that is asked for is that of one of some paths, or one to which an import leads. -/
def Prompted (paths : List Text) (exchanges : List Exchange) : Prop :=
  ∀ path reply, ⟨.fetch path, reply⟩ ∈ exchanges →
    path ∈ paths ∨ ∃ resolution, ⟨.resolve resolution, .answer path⟩ ∈ exchanges

/-- A property passes from the paths of documents to those to which their imports lead. -/
def Passes (holds : Text → Prop) (exchanges : List Exchange) : Prop :=
  ∀ resolution owner target, resolution.base = some owner → holds owner →
    ⟨.resolve resolution, .answer target⟩ ∈ exchanges → holds target

/-- Every import is that of a document whose text came. -/
def Grounded (exchanges : List Exchange) : Prop :=
  ∀ resolution reply, ⟨.resolve resolution, reply⟩ ∈ exchanges →
    ∃ owner text, resolution.base = some owner ∧ ⟨.fetch owner, .answer text⟩ ∈ exchanges

/-! ## Texts -/

theorem Settlement.answer_mem_exchanges {settlement : Settlement}
    (atMost : settlement.targets.length ≤ settlement.sites.length) {target : Text}
    (member : target ∈ settlement.targets) :
    ∃ resolution, ⟨.resolve resolution, .answer target⟩ ∈ settlement.exchanges := by
  obtain ⟨index, isTarget⟩ := List.mem_iff_getElem?.mp member
  have inside : index < settlement.sites.length :=
    Nat.lt_of_lt_of_le (List.getElem?_eq_some_iff.mp isTarget).1 atMost
  have isSite := List.getElem?_eq_getElem inside
  refine ⟨settlement.document.resolution settlement.sites[index], ?_⟩
  exact Settlement.mem_exchanges.mpr (.inr ⟨index, _, target, isSite, isTarget, rfl⟩)

/-- No text is asked for by the imports of a settled document. -/
theorem Settlement.path_eq_of_fetch {settlement : Settlement} {path : Text} {reply : Reply}
    (member : ⟨.fetch path, reply⟩ ∈ settlement.exchanges) : path = settlement.path := by
  rcases Settlement.mem_exchanges.mp member with same | ⟨_, _, _, _, _, same⟩
  · cases same
    rfl
  · cases same

theorem Settlement.base_of_resolve {settlement : Settlement} {resolution : Resolution}
    {reply : Reply} (member : ⟨.resolve resolution, reply⟩ ∈ settlement.exchanges) :
    resolution.base = some settlement.path := by
  rcases Settlement.mem_exchanges.mp member with same | ⟨_, _, _, _, _, same⟩
  · cases same
  · cases same
    rfl

theorem HaltsInside.not_fetch {settlement : Settlement} {failure : Failure}
    (halts : HaltsInside settlement tail failure) {path : Text} {reply : Reply} :
    ⟨.fetch path, reply⟩ ∉ tail := by
  intro member
  cases halts with
  | unencodable _ _ => cases member
  | unresolved _ _ _ =>
      cases List.mem_singleton.mp member

/-- A property that passes from documents to the targets of their imports holds of all paths whose
texts are asked for, if it does of those that are left to be visited. -/
theorem Unfolds.holds_of_passes (unfolds : Unfolds settlements paths last tail result)
    (holds : Text → Prop) :
    ∃ more, last = settlements ++ more ∧
      (Passes holds (more.flatMap Settlement.exchanges ++ tail) →
        (∀ path ∈ paths, holds path) →
        ∀ path reply, ⟨.fetch path, reply⟩ ∈ more.flatMap Settlement.exchanges ++ tail →
          holds path) := by
  induction unfolds with
  | done =>
      refine ⟨[], (List.append_nil _).symm, fun _ _ path reply member => ?_⟩
      exact absurd member List.not_mem_nil
  | unending =>
      refine ⟨[], (List.append_nil _).symm, fun _ _ path reply member => ?_⟩
      exact absurd member List.not_mem_nil
  | known _ _ induction =>
      obtain ⟨more, isLast, later⟩ := induction
      refine ⟨more, isLast, fun passes entries => later passes ?_⟩
      exact (List.forall_mem_cons.mp entries).2
  | @visit settlements _ settlement paths _ _ _ complete _ induction =>
      obtain ⟨more, rfl, later⟩ := induction
      refine ⟨settlement :: more, by simp, ?_⟩
      rw [List.flatMap_cons, List.append_assoc]
      intro passes entries path reply member
      obtain ⟨first, others⟩ := List.forall_mem_cons.mp entries
      rcases List.mem_append.mp member with here | isLater
      · rw [Settlement.path_eq_of_fetch here]
        exact first
      · refine later ?_ (List.forall_mem_append.mpr ⟨?_, others⟩) path reply isLater
        · intro resolution owner target isBase holdsOwner answered
          exact passes resolution owner target isBase holdsOwner
            (List.mem_append_right _ answered)
        · intro target discovered
          have isTarget := List.mem_of_mem_filter (List.mem_reverse.mp discovered)
          obtain ⟨resolution, answered⟩ :=
            Settlement.answer_mem_exchanges (Nat.le_of_eq complete) isTarget
          exact passes resolution _ target (Settlement.base_of_resolve answered) first
            (List.mem_append_left _ answered)
  | @halt settlements _ path paths _ _ _ haltsAt =>
      cases haltsAt with
      | unread _ =>
          refine ⟨[], (List.append_nil _).symm, fun _ entries other reply member => ?_⟩
          cases List.mem_singleton.mp member
          exact entries path List.mem_cons_self
      | @inside settlement _ _ isPath inside =>
          subst isPath
          refine ⟨[settlement], rfl, fun _ entries other reply member => ?_⟩
          rw [List.flatMap_singleton] at member
          rcases List.mem_append.mp member with here | later
          · rw [Settlement.path_eq_of_fetch here]
            exact entries _ List.mem_cons_self
          · exact absurd later inside.not_fetch

/-- A property that passes from documents to the targets of their imports holds of all paths whose
texts a crawl asks for, if it does of the entry. -/
theorem holds_of_mem_transcript {bound : Nat} {host : Host σ} {entry : Text} {initial : σ}
    {holds : Text → Prop} (ofEntry : holds entry)
    (passes : Passes holds (transcript bound host entry (.start initial))) {path : Text}
    {reply : Reply}
    (asked : ⟨.fetch path, reply⟩ ∈ transcript bound host entry (.start initial)) :
    holds path := by
  obtain ⟨last, tail, result, after, crawled, settled, unfolds⟩ :=
    crawl_unfolds host (settled_start initial) bound entry
  obtain ⟨more, rfl, ofFetched⟩ := unfolds.holds_of_passes holds
  have isAfter : transcribed bound host entry (.start initial) = (result, after) := crawled
  rw [transcript, isAfter, settled.transcript_eq] at passes asked
  exact ofFetched passes (List.forall_mem_singleton.mpr ofEntry) path reply asked

/-- A crawl asks for the text of its entry and of the targets of imports. -/
theorem transcript_prompted (bound : Nat) (host : Host σ) (entry : Text) (initial : σ) :
    Prompted [entry] (transcript bound host entry (.start initial)) := by
  intro path reply asked
  let known (path : Text) : Prop := path ∈ [entry] ∨
    ∃ resolution, ⟨.resolve resolution, .answer path⟩ ∈ transcript bound host entry (.start initial)
  have ofEntry : known entry := .inl List.mem_cons_self
  refine holds_of_mem_transcript ofEntry ?_ asked
  intro resolution _ target _ _ answered
  exact .inr ⟨resolution, answered⟩

/-! ## Imports -/

theorem Halts.base_of_resolve {failure : Failure} (halts : Halts settlements tail failure)
    {resolution : Resolution} {reply : Reply} (member : ⟨.resolve resolution, reply⟩ ∈ tail) :
    ∃ settlement ∈ settlements, resolution.base = some settlement.path := by
  cases halts with
  | unread _ _ _ => cases List.mem_singleton.mp member
  | @inside _ last _ _ _ inside =>
      cases inside with
      | unencodable _ _ => cases member
      | unresolved _ _ _ =>
          cases List.mem_singleton.mp member
          exact ⟨last, List.mem_append_right _ List.mem_cons_self, rfl⟩
  | unending _ => cases member

theorem grounded_of_bases
    (bases : ∀ resolution reply, ⟨.resolve resolution, reply⟩ ∈ tail →
      ∃ settlement ∈ settlements, resolution.base = some settlement.path) :
    Grounded (settlements.flatMap Settlement.exchanges ++ tail) := by
  intro resolution reply member
  have base : ∃ settlement ∈ settlements, resolution.base = some settlement.path := by
    rcases List.mem_append.mp member with isSettled | isLast
    · obtain ⟨settlement, isSettlement, isExchange⟩ := List.mem_flatMap.mp isSettled
      exact ⟨settlement, isSettlement, Settlement.base_of_resolve isExchange⟩
    · exact bases resolution reply isLast
  obtain ⟨settlement, isSettlement, isBase⟩ := base
  exact ⟨settlement.path, settlement.document.source.text, isBase,
    List.mem_append_left _ (List.mem_flatMap.mpr ⟨settlement, isSettlement, List.mem_cons_self⟩)⟩

/-- A crawl resolves imports of documents whose texts came. -/
theorem transcript_grounded (bound : Nat) (host : Host σ) (entry : Text) (initial : σ) :
    Grounded (transcript bound host entry (.start initial)) := by
  obtain ⟨settlements, tail, _, _, _, isTranscript, _, ending⟩ :=
    transcribed_settled host bound entry initial
  rw [isTranscript]
  rcases ending with ⟨_, rfl⟩ | ⟨failure, _, halts⟩
  · exact grounded_of_bases fun _ _ member => absurd member List.not_mem_nil
  · exact grounded_of_bases fun resolution reply member => halts.base_of_resolve member

end ConfigGraph.Load
