import ConfigGraph.Proofs.Host.Memory
import ConfigGraph.Proofs.Load.Prompting
import ConfigGraph.Proofs.Load.Replay

/-!
# What a load of documents in memory depends on

A load reaches its entry and the targets of the imports that it resolves.  Documents elsewhere can be
added, changed or removed without any difference to it.
-/

namespace ConfigGraph

namespace Host

/-- Documents that are the same at the path that a call is about. -/
theorem agreesOn_memory {first second : List (Text × Text)} {call : Call}
    (sameTarget : ∀ resolution, call = .resolve resolution →
      textAt? second resolution.target = textAt? first resolution.target)
    (samePath : ∀ path, call = .fetch path → textAt? second path = textAt? first path) :
    (memory first).AgreesOn (memory second) call := by
  cases call with
  | resolve resolution =>
      intro _ _
      rw [resolve_memory, resolve_memory, sameTarget resolution rfl]
  | fetch path =>
      intro _ _
      rw [fetch_memory, fetch_memory, samePath path rfl]
  | report notice => trivial

end Host

namespace Load

/-! ## Loads -/

/-- A load that lists its calls. -/
def recordedLoad {σ : Type} (limits : Limits) (host : Host σ) (entry : Text) (initial : σ) :
    Except Failure Json × LoadState (σ × List Call) :=
  perform (load limits host.recorded entry) (.start (initial, []))

theorem recordedLoad_eq {σ : Type} (limits : Limits) (host : Host σ) (entry : Text) (initial : σ) :
    recordedLoad limits host entry initial =
      ((transcribedLoad limits host entry initial).1,
        (transcribedLoad limits host entry initial).2.mapHost fun state =>
          (state.1, state.2.map Exchange.call)) :=
  load_follows (Host.transcribed_follows_recorded host) limits entry (.start (initial, []))

theorem calls_recordedLoad {σ : Type} (limits : Limits) (host : Host σ) (entry : Text)
    (initial : σ) :
    (recordedLoad limits host entry initial).2.host.2 =
      (transcript limits.visits host entry (.start initial)).map Exchange.call := by
  rw [recordedLoad_eq, ← transcript_load]
  rfl

/-- A load of documents in memory depends on those only that it reaches.

Other documents that are the same at the entry and at the target of each import that the load
resolves, or are missing there as well, lead to the same result, by the same calls, and the same
documents and paths of imports are stored. -/
theorem load_memory_reach (limits : Limits) {first second : List (Text × Text)} {entry : Text}
    (atEntry : textAt? second entry = textAt? first entry)
    (atTargets : ∀ resolution,
      .resolve resolution ∈ (recordedLoad limits (.memory first) entry ()).2.host.2 →
      textAt? second resolution.target = textAt? first resolution.target) :
    (recordedLoad limits (.memory second) entry ()).1 =
        (recordedLoad limits (.memory first) entry ()).1 ∧
      (recordedLoad limits (.memory second) entry ()).2.host.2 =
        (recordedLoad limits (.memory first) entry ()).2.host.2 ∧
      (recordedLoad limits (.memory second) entry ()).2.store =
        (recordedLoad limits (.memory first) entry ()).2.store := by
  rw [calls_recordedLoad] at atTargets
  have atTarget {resolution : Resolution} {reply : Reply}
      (member : ⟨.resolve resolution, reply⟩ ∈
        transcript limits.visits (.memory first) entry (.start ())) :
      textAt? second resolution.target = textAt? first resolution.target :=
    atTargets resolution (List.mem_map.mpr ⟨_, member, rfl⟩)
  have agrees : ∀ exchange ∈ transcript limits.visits (.memory first) entry (.start ()),
      (Host.memory first).AgreesOn (Host.memory second) exchange.call := by
    rintro ⟨call, reply⟩ member
    refine Host.agreesOn_memory ?_ ?_
    · rintro resolution rfl
      exact atTarget member
    · rintro path rfl
      rcases transcript_prompted _ _ entry () path reply member with
        isEntry | ⟨resolution, answered⟩
      · rw [List.mem_singleton.mp isEntry, atEntry]
      · obtain ⟨rfl, _⟩ := (answers_of_mem_transcript answered).target_memory
        exact atTarget answered
  obtain ⟨sameResult, sameStore, sameTranscript⟩ := load_replay agrees ()
  rw [recordedLoad_eq, recordedLoad_eq]
  exact ⟨sameResult, congrArg (List.map Exchange.call) sameTranscript, sameStore⟩

/-- Two documents, one of which imports the other one. -/
def importOfOne : List (Text × Text) := [("/a.cairn", "import \"b.cairn\""), ("/b.cairn", "1")]

/-- A document at another path makes no difference. -/
theorem load_memory_reach_importOfOne :
    (recordedLoad ⟨5, 9⟩ (.memory (("/c.cairn", "2") :: importOfOne)) "/a.cairn" ()).1 =
      (recordedLoad ⟨5, 9⟩ (.memory importOfOne) "/a.cairn" ()).1 := by
  have calls : (recordedLoad ⟨5, 9⟩ (.memory importOfOne) "/a.cairn" ()).2.host.2 =
      [.fetch "/a.cairn", .resolve ⟨"b.cairn", ⟨⟨0, 0⟩, ⟨0, 16⟩⟩, some "/a.cairn"⟩,
        .fetch "/b.cairn"] := by
    decide +kernel
  refine (load_memory_reach ⟨5, 9⟩ (by decide +kernel) ?_).1
  intro resolution member
  rw [calls] at member
  simp only [List.mem_cons, reduceCtorEq, Call.resolve.injEq, List.not_mem_nil, or_false,
    false_or] at member
  subst member
  decide +kernel

end Load

end ConfigGraph
