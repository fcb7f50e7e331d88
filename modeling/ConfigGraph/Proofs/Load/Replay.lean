import ConfigGraph.Proofs.Load.Location

/-!
# Loads that come out the same

A load depends on its host through the replies that it gets, and on nothing else.  So another host
that replies the same to what a load asks for leads to the same load (`load_replay`).
-/

namespace ConfigGraph

/-- Two hosts give the same reply to a call, whatever their states. -/
def Host.AgreesOn {σ τ : Type} (host : Host σ) (other : Host τ) : Call → Prop
  | .resolve resolution => ∀ state otherState,
      (other.resolve resolution otherState).reply = (host.resolve resolution state).reply
  | .fetch path => ∀ state otherState,
      (other.fetch path otherState).reply = (host.fetch path state).reply
  | .report _ => True

theorem Host.AgreesOn.symm {σ τ : Type} {host : Host σ} {other : Host τ} {call : Call}
    (agrees : host.AgreesOn other call) : other.AgreesOn host call := by
  cases call with
  | resolve resolution => exact fun otherState state => (agrees state otherState).symm
  | fetch path => exact fun otherState state => (agrees state otherState).symm
  | report notice => trivial

namespace Load

variable {σ τ : Type}

/-- States with one store and one transcript go together, as long as two hosts agree on the calls in
the transcript. -/
def Coupling.replay (host : Host σ) (other : Host τ) :
    Coupling (σ × List Exchange) (τ × List Exchange) where
  Good state := ∀ exchange ∈ state.2, host.AgreesOn other exchange.call
  Pairs state otherState :=
    otherState.store = state.store ∧ otherState.host.2 = state.host.2
  store_eq pairs := pairs.1
  update pairs _ _ := ⟨rfl, pairs.2⟩

theorem Coupling.mirrors_replay {host : Host σ} {other : Host τ} {call : Call}
    {request : σ → Outcome σ Reply} {otherRequest : τ → Outcome τ Reply}
    (same : host.AgreesOn other call →
      ∀ state otherState, (otherRequest otherState).reply = (request state).reply)
    (state : LoadState (σ × List Exchange)) (otherState : LoadState (τ × List Exchange)) :
    (Coupling.replay host other).Mirrors
      (ask fun state => Host.transcribe call state.2 (request state.1))
      (ask fun state => Host.transcribe call state.2 (otherRequest state.1)) state otherState := by
  constructor
  · exact fun agrees exchange member => agrees exchange (List.mem_append_left _ member)
  · rintro agrees ⟨sameStore, sameTranscript⟩
    have sameReply : (otherRequest otherState.host.1).reply = (request state.host.1).reply :=
      same (agrees _ (List.mem_append_right _ List.mem_cons_self)) _ _
    rw [perform_ask, perform_ask]
    refine ⟨congrArg Except.ok sameReply, sameStore, ?_⟩
    simp only [Host.transcribe, sameReply, sameTranscript]

theorem Coupling.hosts_replay (host : Host σ) (other : Host τ) :
    (Coupling.replay host other).Hosts host.transcribed other.transcribed := by
  constructor
  · intro resolution state otherState
    refine Coupling.mirrors_replay ?_ state otherState
    exact fun agrees => agrees
  · intro path state otherState
    refine Coupling.mirrors_replay ?_ state otherState
    exact fun agrees => agrees

/-- A load with a transcript that is empty before. -/
def transcribedLoad (limits : Limits) (host : Host σ) (entry : Text) (initial : σ) :
    Except Failure Json × LoadState (σ × List Exchange) :=
  perform (load limits host.transcribed entry) (.start (initial, []))

theorem perform_load_eq (limits : Limits) (host : Host σ) (entry : Text) (initial : σ) :
    perform (load limits host entry) (.start initial) =
      ((transcribedLoad limits host entry initial).1,
        (transcribedLoad limits host entry initial).2.mapHost Prod.fst) :=
  load_follows host.transcribed_follows limits entry (.start (initial, []))

/-- What a load asks its host for is what its crawl does. -/
theorem transcript_load (limits : Limits) (host : Host σ) (entry : Text) (initial : σ) :
    (transcribedLoad limits host entry initial).2.host.2 =
      transcript limits.visits host entry (.start initial) :=
  congrArg Prod.snd (perform_load_state limits host.transcribed entry _).1

/-- A load with a host that agrees on all calls. -/
theorem load_replay {limits : Limits} {host : Host σ} {other : Host τ} {entry : Text}
    {initial : σ}
    (agrees : ∀ exchange ∈ transcript limits.visits host entry (.start initial),
      host.AgreesOn other exchange.call) (otherInitial : τ) :
    (transcribedLoad limits other entry otherInitial).1 =
        (transcribedLoad limits host entry initial).1 ∧
      (transcribedLoad limits other entry otherInitial).2.store =
        (transcribedLoad limits host entry initial).2.store ∧
      (transcribedLoad limits other entry otherInitial).2.host.2 =
        (transcribedLoad limits host entry initial).2.host.2 := by
  have mirrors : (Coupling.replay host other).Mirrors (load limits host.transcribed entry)
      (load limits other.transcribed entry) (.start (initial, [])) (.start (otherInitial, [])) :=
    Coupling.mirrors_load (Coupling.hosts_replay host other) limits entry
  rw [← transcript_load] at agrees
  exact mirrors.same agrees ⟨rfl, rfl⟩

end Load

end ConfigGraph
