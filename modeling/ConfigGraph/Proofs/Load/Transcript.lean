import ConfigGraph.Proofs.Load.Coupling

/-!
# Transcripts

A transcript lists what a crawl asks its host for, with the replies.  A crawl does not look into the
state of its host, so that writing a transcript changes nothing else (`crawl_follows`).
-/

namespace ConfigGraph

structure Exchange where
  call : Call
  reply : Reply

namespace Host

/-- What comes of a call that goes into a transcript. -/
def transcribe {σ : Type} (call : Call) (exchanges : List Exchange) (outcome : Outcome σ Reply) :
    Outcome (σ × List Exchange) Reply :=
  ⟨outcome.reply, (outcome.state, exchanges ++ [⟨call, outcome.reply⟩]), outcome.log⟩

/-- A host that also writes a transcript of what it is asked for. -/
def transcribed {σ : Type} (host : Host σ) : Host (σ × List Exchange) where
  resolve resolution state :=
    transcribe (.resolve resolution) state.2 (host.resolve resolution state.1)
  fetch path state := transcribe (.fetch path) state.2 (host.fetch path state.1)
  report notice state :=
    let outcome := host.report notice state.1
    ⟨(), (outcome.state, state.2), outcome.log⟩

end Host

def Outcome.mapState {σ τ α : Type} (change : σ → τ) (outcome : Outcome σ α) : Outcome τ α :=
  ⟨outcome.reply, change outcome.state, outcome.log⟩

/-- The state of a load with another host state. -/
def LoadState.mapHost {σ τ : Type} (change : σ → τ) (state : LoadState σ) : LoadState τ :=
  ⟨change state.host, state.store, state.log⟩

/-- A host answers like another one whose states are those of the first in another form. -/
structure Host.Follows {σ τ : Type} (change : σ → τ) (host : Host σ) (other : Host τ) : Prop where
  resolve : ∀ resolution state,
    other.resolve resolution (change state) = (host.resolve resolution state).mapState change
  fetch : ∀ path state, other.fetch path (change state) = (host.fetch path state).mapState change

theorem Host.transcribed_follows {σ : Type} (host : Host σ) :
    Host.Follows Prod.fst host.transcribed host :=
  ⟨fun _ _ => rfl, fun _ _ => rfl⟩

/-- The calls of a transcript are those that are recorded. -/
theorem Host.transcribed_follows_recorded {σ : Type} (host : Host σ) :
    Host.Follows (fun state => (state.1, state.2.map Exchange.call)) host.transcribed
      host.recorded := by
  constructor
  · intro resolution state
    simp [recorded, note, transcribed, transcribe, Outcome.mapState]
  · intro path state
    simp [recorded, note, transcribed, transcribe, Outcome.mapState]

namespace Load

variable {σ τ α : Type} {change : σ → τ} {host : Host σ} {other : Host τ}

/-- In a state, a part of a load does what another one does with the host state in another form. -/
def FollowsIn (change : σ → τ) (part : Load σ α) (other : Load τ α) (state : LoadState σ) : Prop :=
  perform other (state.mapHost change) =
    ((perform part state).1, (perform part state).2.mapHost change)

/-- States that are the same but for the form of the host state go together. -/
def Coupling.along (change : σ → τ) : Coupling σ τ where
  Good _ := True
  Pairs state other := other = state.mapHost change
  store_eq := by
    rintro _ _ rfl
    rfl
  update := by
    rintro _ _ rfl _ _
    rfl

theorem Coupling.hosts_along (follows : Host.Follows change host other) :
    (Coupling.along change).Hosts host other := by
  constructor
  · refine fun resolution state otherState => ⟨fun _ => trivial, ?_⟩
    rintro _ rfl
    rw [perform_ask, perform_ask, LoadState.mapHost, follows.resolve]
    exact ⟨rfl, rfl⟩
  · refine fun path state otherState => ⟨fun _ => trivial, ?_⟩
    rintro _ rfl
    rw [perform_ask, perform_ask, LoadState.mapHost, follows.fetch]
    exact ⟨rfl, rfl⟩

theorem followsIn_of_mirrors {part : Load σ α} {otherPart : Load τ α} {state : LoadState σ}
    (mirrors : (Coupling.along change).Mirrors part otherPart state (state.mapHost change)) :
    FollowsIn change part otherPart state := by
  obtain ⟨sameResult, sameAfter⟩ := mirrors.same trivial rfl
  exact Prod.ext sameResult sameAfter

theorem visit_follows (follows : Host.Follows change host other) (path : Text)
    (state : LoadState σ) : FollowsIn change (visit host path) (visit other path) state :=
  followsIn_of_mirrors (Coupling.mirrors_visit (Coupling.hosts_along follows) path)

/-- A crawl does the same with a host that answers the same. -/
theorem crawl_follows (follows : Host.Follows change host other) (bound : Nat) (entry : Text)
    (state : LoadState σ) :
    perform (crawl bound other entry) (state.mapHost change) =
      ((perform (crawl bound host entry) state).1,
        (perform (crawl bound host entry) state).2.mapHost change) :=
  followsIn_of_mirrors (Coupling.mirrors_crawl (Coupling.hosts_along follows) bound entry)

theorem load_follows (follows : Host.Follows change host other) (limits : Limits) (entry : Text)
    (state : LoadState σ) :
    FollowsIn change (load limits host entry) (load limits other entry) state :=
  followsIn_of_mirrors (Coupling.mirrors_load (Coupling.hosts_along follows) limits entry)

/-- A crawl with a transcript that is empty before. -/
def transcribed (bound : Nat) (host : Host σ) (entry : Text) (before : LoadState σ) :
    Except Failure Unit × LoadState (σ × List Exchange) :=
  perform (crawl bound host.transcribed entry) (before.mapHost fun initial => (initial, []))

/-- What a crawl that starts in a state asks its host for, with the replies. -/
def transcript (bound : Nat) (host : Host σ) (entry : Text) (before : LoadState σ) :
    List Exchange :=
  (transcribed bound host entry before).2.host.2

/-- A crawl does what it does with a transcript. -/
theorem perform_crawl (bound : Nat) (host : Host σ) (entry : Text) (before : LoadState σ) :
    perform (crawl bound host entry) before =
      ((transcribed bound host entry before).1,
        (transcribed bound host entry before).2.mapHost Prod.fst) :=
  crawl_follows host.transcribed_follows bound entry
    (before.mapHost fun initial => (initial, []))

end Load

/-! ## Replies -/

namespace Host

variable {σ : Type}

/-- In some state the host gives the reply of an exchange. -/
def Answers (host : Host σ) (exchange : Exchange) : Prop :=
  ∃ state, match exchange.call with
    | .resolve resolution => (host.resolve resolution state).reply = exchange.reply
    | .fetch path => (host.fetch path state).reply = exchange.reply
    | .report _ => False

/-- Exchanges of which all replies are those of a host. -/
abbrev Answered (host : Host σ) : Type :=
  { exchanges : List Exchange // ∀ exchange ∈ exchanges, host.Answers exchange }

def Answered.add {host : Host σ} (exchanges : host.Answered) {exchange : Exchange}
    (answers : host.Answers exchange) : host.Answered :=
  ⟨exchanges.1 ++ [exchange], List.forall_mem_append.mpr
    ⟨exchanges.2, List.forall_mem_singleton.mpr answers⟩⟩

/-- A host that writes a transcript with the proof that the replies in it are its own. -/
def attested (host : Host σ) : Host (σ × host.Answered) where
  resolve resolution state :=
    let outcome := host.resolve resolution state.1
    ⟨outcome.reply, (outcome.state, @Answered.add σ host state.2
      ⟨.resolve resolution, outcome.reply⟩ ⟨state.1, rfl⟩), outcome.log⟩
  fetch path state :=
    let outcome := host.fetch path state.1
    ⟨outcome.reply, (outcome.state, @Answered.add σ host state.2
      ⟨.fetch path, outcome.reply⟩ ⟨state.1, rfl⟩), outcome.log⟩
  report notice state :=
    let outcome := host.report notice state.1
    ⟨(), (outcome.state, state.2), outcome.log⟩

theorem attested_follows (host : Host σ) :
    Host.Follows (fun state => (state.1, state.2.1)) host.attested host.transcribed :=
  ⟨fun _ _ => rfl, fun _ _ => rfl⟩

end Host

/-- A crawl with a transcript that is attested, and empty before. -/
def Load.attested {σ : Type} (bound : Nat) (host : Host σ) (entry : Text) (before : LoadState σ) :
    Except Failure Unit × LoadState (σ × host.Answered) :=
  perform (crawl bound host.attested entry)
    (before.mapHost fun initial => (initial, ⟨[], List.forall_mem_nil _⟩))

/-- All replies in the transcript of a crawl are those of its host. -/
theorem Load.answers_of_mem_transcript {σ : Type} {bound : Nat} {host : Host σ} {entry : Text}
    {before : LoadState σ} {exchange : Exchange}
    (member : exchange ∈ transcript bound host entry before) : host.Answers exchange := by
  have same : transcribed bound host entry before =
      ((attested bound host entry before).1,
        (attested bound host entry before).2.mapHost fun state => (state.1, state.2.1)) :=
    crawl_follows host.attested_follows bound entry
      (before.mapHost fun initial => (initial, ⟨[], List.forall_mem_nil _⟩))
  rw [transcript, same] at member
  exact (attested bound host entry before).2.host.2.2 exchange member

end ConfigGraph
