import ConfigGraph.Proofs.Evaluation.Cycle
import ConfigGraph.Proofs.Load.Location

/-!
# Loads of documents that need themselves

The error of a document that needs itself is reported for cycles of imports only: in a store that
crawls have left behind the document is reached from the one that is evaluated, and is on a cycle.
Reading documents never fails in this way, so a load without such cycles does not, unless its host
refuses something with this very error.
-/

namespace ConfigGraph

open Relation

/-- The error of a document that needs itself. -/
def LoadError.IsRecursion (error : LoadError) : Prop :=
  error.kind = .evaluation ∧ error.code = .infiniteRecursion

theorem LoadError.isRecursion_locate {error : LoadError} {path : Text} {range : Option Range}
    (isRecursion : (error.locate path range).IsRecursion) : error.IsRecursion := by
  unfold LoadError.locate at isRecursion
  split at isRecursion <;> exact isRecursion

namespace Load

/-- A crawl only fails in this way if the host does. -/
theorem Halts.refused_of_recursion {settlements : List Settlement} {tail : List Exchange}
    {error : LoadError} (halts : Halts settlements tail (.error error))
    (isRecursion : error.IsRecursion) :
    ∃ exchange ∈ tail, ∃ refusal, exchange.reply = .refused refusal ∧ refusal.IsRecursion := by
  have isEvaluation := isRecursion.1
  cases halts.haltsBy with
  | unread parsed =>
      have isParse := (ofSource_of_parseDocument parsed).kind
      rw [isEvaluation] at isParse
      cases isParse
  | refused _ =>
      exact ⟨_, List.mem_singleton.mpr rfl, _, rfl, LoadError.isRecursion_locate isRecursion⟩
  | unfetched | unresolved _ | unencodable => cases isEvaluation

/-- Plain data are never missing for this reason. -/
theorem not_recursion_toError (obstacle : Value.Obstacle) : ¬obstacle.toError.IsRecursion := by
  rintro ⟨isEvaluation, _⟩
  cases obstacle <;> cases isEvaluation

/-- A load that fails for a document that needs itself has a cycle of imports, or a host that
refuses something with this error. -/
theorem load_recursion {σ : Type} (host : Host σ) (limits : Limits) (entry : Text) (initial : σ)
    {error : LoadError}
    (failed : (perform (load limits host entry) (.start initial)).1 = .error (.error error))
    (isRecursion : error.IsRecursion) :
    (∃ exchange ∈ transcript limits.visits host entry (.start initial), ∃ refusal,
      exchange.reply = .refused refusal ∧ refusal.IsRecursion) ∨
    ∃ needed, TransGen (perform (load limits host entry) (.start initial)).2.store.Imports
      needed needed := by
  rw [(perform_load_state limits host entry (.start initial)).2]
  rw [perform_load] at failed
  rcases of_resultOf_eq_error failed with halted | ⟨succeeded, evaluated | ⟨obstacle, same⟩⟩
  · rw [perform_crawl] at halted
    obtain ⟨settlements, tail, result, after, isAfter, isTranscript, _, ending⟩ :=
      transcribed_settled host limits.visits entry initial
    rw [isAfter] at halted
    rcases ending with ⟨rfl, _⟩ | ⟨failure, rfl, halts⟩
    · cases halted
    · cases halted
      obtain ⟨exchange, member, refusal, isReply, refused⟩ := halts.refused_of_recursion isRecursion
      refine .inl ⟨exchange, ?_, refusal, isReply, refused⟩
      rw [isTranscript]
      exact List.mem_append_right _ member
  · have isStart : Used [] [] (LoadState.start initial).store .start := .fresh
    obtain ⟨settlements, settles, _⟩ := (Used.crawl isStart succeeded).settles
    obtain ⟨needed, _, reaches⟩ :=
      Evaluation.reachesCycle_of_recursion settles.store_closed evaluated isRecursion.2
    exact .inr ⟨needed, reaches.cyclic⟩
  · cases same
    exact absurd isRecursion (not_recursion_toError obstacle)

/-- A document that needs itself is on a cycle of imports.

An evaluation of its own in a store that crawls have left behind only fails with the error of a
document that needs itself if imports lead from the path that is evaluated to that document, and
from that document back to it.  So a load whose imports make no cycles never fails with such an
error, unless its host refuses something with one. -/
theorem recursion_on_cycle :
    (∀ {entries : List Text} {exchanges : List Exchange} {store : Store} {session : Session},
      Used entries exchanges store session → ∀ (depth : Nat) (path : Text),
      store.contains path = true → ∀ error : LoadError,
      ((Evaluation.ofPath depth store path).perform .start).1 = .error (.error error) →
      error.code = .infiniteRecursion →
      ∃ needed, error = Evaluation.recursionError needed ∧
        ReflTransGen store.Imports path needed ∧ TransGen store.Imports needed needed) ∧
    ∀ {σ : Type} (host : Host σ) (limits : Limits) (entry : Text) (initial : σ),
      (∀ exchange ∈ transcript limits.visits host entry (.start initial), ∀ refusal,
        exchange.reply = .refused refusal → ¬refusal.IsRecursion) →
      (∀ path, ¬TransGen (perform (load limits host entry) (.start initial)).2.store.Imports
        path path) →
      ∀ error : LoadError,
        (perform (load limits host entry) (.start initial)).1 = .error (.error error) →
        ¬error.IsRecursion := by
  constructor
  · intro entries exchanges store session used depth path _ error failed isRecursion
    obtain ⟨settlements, settles, _⟩ := used.settles
    obtain ⟨needed, isNeeded, reaches⟩ :=
      Evaluation.reachesCycle_of_recursion settles.store_closed failed isRecursion
    exact ⟨needed, isNeeded, reaches.reached, reaches.cyclic⟩
  · intro σ host limits entry initial noRefusal acyclic error failed isRecursion
    rcases load_recursion host limits entry initial failed isRecursion with
      ⟨exchange, member, refusal, isReply, refused⟩ | ⟨needed, cyclic⟩
    · exact noRefusal exchange member refusal isReply refused
    · exact acyclic needed cyclic

/-- Documents in memory are not refused with the error of a document that needs itself. -/
theorem not_recursion_memory {documents : List (Text × Text)} {exchange : Exchange}
    {refusal : LoadError} (answers : (Host.memory documents).Answers exchange)
    (refused : exchange.reply = .refused refusal) : ¬refusal.IsRecursion := by
  rintro ⟨isEvaluation, _⟩
  obtain ⟨call, reply⟩ := exchange
  obtain ⟨_, isReply⟩ := answers
  cases (show reply = .refused refusal from refused)
  cases call with
  | resolve resolution =>
      simp only [Host.memory] at isReply
      split at isReply
      · cases isReply
      · cases isReply
        cases isEvaluation
  | fetch path =>
      simp only [Host.memory] at isReply
      split at isReply
      · cases isReply
      · cases isReply
        cases isEvaluation
  | report notice => exact isReply

theorem exists_error_of_code {α : Type} {result : Except Failure α} {code : ErrorCode}
    (isCode : (match result with | .error (.error error) => some error.code | _ => none) =
      some code) : ∃ error, result = .error (.error error) ∧ error.code = code := by
  split at isCode
  · exact ⟨_, rfl, Option.some.inj isCode⟩
  · cases isCode

/-- A document that calls a function of another one, which needs the first one in its body. -/
def recursiveDocuments : Host Unit :=
  .memory [("/a.cairn", "(import \"b.cairn\")(1)"), ("/b.cairn", "fun x => import \"a.cairn\"")]

/-- A document that hands a function of one document, with an import in its body, to that of another
one. -/
def passedFunction : List (Text × Text) :=
  [("/a.cairn", "(import \"f.cairn\")(import \"g.cairn\")"), ("/f.cairn", "fun h => h(1)"),
    ("/g.cairn", "fun x => import \"c.cairn\""), ("/c.cairn", "1")]

theorem recursion_on_cycle_functions :
    (∃ exchanges store needed, Used ["/a.cairn"] exchanges store .start ∧
      ((Evaluation.ofPath 10 store "/a.cairn").perform .start).1 =
        .error (.error (Evaluation.recursionError needed)) ∧
      TransGen store.Imports needed needed) ∧
    ∀ error, (perform (load ⟨10, 10⟩ (.memory passedFunction) "/a.cairn") (.start ())).1 =
      .error (.error error) → ¬error.IsRecursion := by
  constructor
  · have crawled : (perform (crawl 4 recursiveDocuments "/a.cairn") (.start ())).1.isOk = true := by
      decide +kernel
    have used := Used.crawl .fresh (perform_of_isOk crawled)
    have evaluated : ∃ error, ((Evaluation.ofPath 10 (perform (crawl 4 recursiveDocuments "/a.cairn")
        (.start ())).2.store "/a.cairn").perform .start).1 = .error (.error error) ∧
        error.code = .infiniteRecursion := by
      apply exists_error_of_code
      decide +kernel
    obtain ⟨error, failed, isRecursion⟩ := evaluated
    obtain ⟨needed, rfl, _, cyclic⟩ := recursion_on_cycle.1 used 10 "/a.cairn"
      (by decide +kernel) error failed isRecursion
    exact ⟨_, _, needed, used, failed, cyclic⟩
  · refine recursion_on_cycle.2 _ _ _ _ (fun exchange member refusal isReply =>
      not_recursion_memory (answers_of_mem_transcript member) isReply) ?_
    -- Each import leads to a document that stands earlier in this list.
    refine Store.acyclic_of_rank
      (["/c.cairn", "/g.cairn", "/f.cairn", "/a.cairn"].map Text.ofString).idxOf ?_
    decide +kernel

end Load

end ConfigGraph
