import ConfigGraph.Host.Memory
import ConfigGraph.Proofs.Error
import ConfigGraph.Proofs.Load.Transcript

/-!
# What documents in memory reply

An import is resolved to its target if there is a document, and the text of a document is that which
was given.  All refusals are proper errors, and nothing is broken.
-/

namespace ConfigGraph

/-- The text of the document at a path, if there is one. -/
def textAt? (documents : List (Text × Text)) (path : Text) : Option Text :=
  (documents.find? fun document => document.1 == path).map (·.2)

theorem isSome_textAt? (documents : List (Text × Text)) (path : Text) :
    (textAt? documents path).isSome = documents.any fun document => document.1 == path := by
  rw [textAt?, Option.isSome_map, List.isSome_find?]

theorem mem_of_textAt? {documents : List (Text × Text)} {path text : Text}
    (found : textAt? documents path = some text) : (path, text) ∈ documents := by
  obtain ⟨document, isFound, rfl⟩ := Option.map_eq_some_iff.mp found
  have samePath : document.1 = path := by simpa using List.find?_some isFound
  rw [← samePath]
  exact List.mem_of_find?_eq_some isFound

/-- The path to which an import of a document in memory leads. -/
def Resolution.target (resolution : Resolution) : Text :=
  Path.absolute (resolution.directory []) resolution.written

namespace Host

variable {documents : List (Text × Text)}

/-! ## Replies -/

theorem resolve_memory (documents : List (Text × Text)) (resolution : Resolution) (state : Unit) :
    ((memory documents).resolve resolution state).reply =
      if (textAt? documents resolution.target).isSome then .answer resolution.target
      else .refused (notFound resolution.written) := by
  rw [isSome_textAt?]
  rfl

theorem fetch_memory (documents : List (Text × Text)) (path : Text) (state : Unit) :
    ((memory documents).fetch path state).reply =
      match textAt? documents path with
      | some text => .answer text
      | none => .refused (noSuchDocument path) := by
  simp only [memory, textAt?]
  cases documents.find? fun document => document.1 == path <;> rfl

theorem proper_memory (documents : List (Text × Text)) : (memory documents).Proper := by
  constructor
  · intro resolution state error refused
    rw [resolve_memory] at refused
    split at refused
    · cases refused
    · cases refused
      exact LoadError.proper_ofTexts (by decide) rfl
  · intro path state error refused
    rw [fetch_memory] at refused
    split at refused
    · cases refused
    · cases refused
      exact LoadError.proper_ofTexts (by decide) rfl

/-! ## Exchanges -/

/-- What documents in memory can reply to a request to resolve an import. -/
theorem answers_resolve_memory_iff {resolution : Resolution} {reply : Reply} :
    (memory documents).Answers ⟨.resolve resolution, reply⟩ ↔
      reply = if (textAt? documents resolution.target).isSome then .answer resolution.target
        else .refused (notFound resolution.written) := by
  simp only [Answers, resolve_memory, exists_const]
  exact eq_comm

theorem answers_fetch_memory_iff {path : Text} {reply : Reply} :
    (memory documents).Answers ⟨.fetch path, reply⟩ ↔
      reply = match textAt? documents path with
        | some text => .answer text
        | none => .refused (noSuchDocument path) := by
  simp only [Answers, fetch_memory, exists_const]
  exact eq_comm

/-- An import is resolved to its target, which is the path of a document. -/
theorem Answers.target_memory {resolution : Resolution} {target : Text}
    (answers : (memory documents).Answers ⟨.resolve resolution, .answer target⟩) :
    target = resolution.target ∧ (textAt? documents target).isSome = true := by
  have isReply := answers_resolve_memory_iff.mp answers
  split at isReply
  case isTrue found =>
    cases isReply
    exact ⟨rfl, found⟩
  case isFalse => cases isReply

theorem refused_fetch_memory {path : Text} {error : LoadError}
    (answers : (memory documents).Answers ⟨.fetch path, .refused error⟩) :
    error = noSuchDocument path := by
  have isReply := answers_fetch_memory_iff.mp answers
  split at isReply
  · cases isReply
  · cases isReply
    rfl

/-- A refusal of documents in memory to resolve an import has no location. -/
theorem refused_resolve_memory {resolution : Resolution} {error : LoadError}
    (answers : (memory documents).Answers ⟨.resolve resolution, .refused error⟩) :
    error = notFound resolution.written := by
  have isReply := answers_resolve_memory_iff.mp answers
  split at isReply
  · cases isReply
  · cases isReply
    rfl

theorem not_broken_memory {call : Call} {reason : Text} :
    ¬(memory documents).Answers ⟨call, .broken reason⟩ := by
  intro answers
  cases call with
  | fetch path =>
      have isReply := answers_fetch_memory_iff.mp answers
      split at isReply <;> cases isReply
  | resolve resolution =>
      have isReply := answers_resolve_memory_iff.mp answers
      split at isReply <;> cases isReply
  | report notice =>
      obtain ⟨_, isNone⟩ := answers
      exact isNone

end Host

end ConfigGraph
