import ConfigGraph.Loading
import ConfigGraph.Proofs.Host.Memory
import ConfigGraph.Proofs.Evaluation.Task
import ConfigGraph.Proofs.Load.Closure

/-!
# What a load comes to

A load that ends gives plain data, or fails with a proper error.  There are three exceptions, and no
others: a YAML document that it fetches has a scalar that is not what its tag promises, a document
that it fetches holds an integer with too many digits, or the evaluation of the entry comes to an
operator that commits a fault.
-/

namespace ConfigGraph.Load

variable {σ : Type}

/-- A result as hosts expect it: a value, or a proper error. -/
inductive Graceful {α : Type} : Except Failure α → Prop where
  | value {value : α} : Graceful (.ok value)
  | error {error : LoadError} : error.Proper → Graceful (.error (.error error))

instance {α : Type} (result : Except Failure α) : Decidable (Graceful result) :=
  match result with
  | .ok _ => isTrue .value
  | .error (.error error) =>
      if staged : error.kind = .general then isFalse fun
        | .error proper => proper.staged staged
      else if complete : error.code.missing? error.details = none then
        isTrue (.error ⟨staged, complete⟩)
      else isFalse fun
        | .error proper => complete proper.complete
  | .error (.fault _) => isFalse nofun

/-- Whether a computation was cut off by its bounds. -/
instance {α : Type} (result : Except Failure α) : Decidable (result = .error (.fault .unending)) :=
  match result with
  | .ok _ | .error (.error _) | .error (.fault (.operatorWithoutSymbol _))
  | .error (.fault (.overflow _)) | .error (.fault (.internal _)) | .error (.fault (.misstep _))
  | .error (.fault (.scalar _)) | .error (.fault (.numberToken _)) => isFalse nofun
  | .error (.fault .unending) => isTrue rfl

theorem not_graceful_fault {α : Type} {fault : Fault} :
    ¬Graceful (.error (.fault fault) : Except Failure α) := by
  intro graceful
  cases graceful

/-- Results that fail alike are equally graceful, whatever values they are to give. -/
theorem graceful_error_iff {α β : Type} {failure : Failure} :
    Graceful (.error failure : Except Failure α) ↔
      Graceful (.error failure : Except Failure β) := by
  constructor
  · rintro ⟨⟩
    exact .error ‹_›
  · rintro ⟨⟩
    exact .error ‹_›

/-- A crawl fetches a YAML document with a scalar that is not what its tag promises. -/
def FetchesBadScalar (bound : Nat) (host : Host σ) (entry : Text) (before : LoadState σ) : Prop :=
  ∃ path text fault, ⟨.fetch path, .answer text⟩ ∈ transcript bound host entry before ∧
    DocumentFormat.ofPath path = .yaml ∧ Yaml.decode path text = .error (.scalar fault)

/-- A crawl fetches a document that holds an integer with too many digits. -/
def FetchesLongInteger (bound : Nat) (host : Host σ) (entry : Text) (before : LoadState σ) : Prop :=
  ∃ path text fault, ⟨.fetch path, .answer text⟩ ∈ transcript bound host entry before ∧
    HoldsLongInteger ⟨path, text⟩ (DocumentFormat.ofPath path) fault

/-- In a store, the evaluation of a document comes to a task that commits a fault. -/
def EvaluatesToFault (depth : Nat) (store : Store) (path : Text) : Prop :=
  ∃ document tree last fault, store.find? path = some document ∧ document.content = .expr tree ∧
    Relation.ReflTransGen (Evaluation.Task.Starts store)
      ⟨depth, ⟨document.path, []⟩, document.source, [], tree, Session.start.enter path⟩ last ∧
    last.Commits store fault

/-! ## Crawls -/

/-- A text that is neither read nor refused with an error. -/
structure BreaksDown (path text : Text) (fault : Fault) : Prop where
  failed : parseDocument ⟨path, text⟩ (DocumentFormat.ofPath path) = .error (.fault fault)
  ends : fault ≠ .unending

theorem breaksDown_iff {path text : Text} {fault : Fault} : BreaksDown path text fault ↔
    (DocumentFormat.ofPath path = .yaml ∧
      ∃ scalar, Yaml.decode path text = .error (.scalar scalar) ∧ fault = .scalar scalar) ∨
    HoldsLongInteger ⟨path, text⟩ (DocumentFormat.ofPath path) fault := by
  constructor
  · rintro ⟨failed, ends⟩
    rcases failure_of_parseDocument failed with
      ⟨_, isError, _⟩ | isUnending | ⟨long, holds, same⟩ | ⟨scalar, isYaml, decoded, same⟩
    · cases isError
    · exact absurd (Failure.fault.inj isUnending) ends
    · cases same
      exact .inr holds
    · exact .inl ⟨isYaml, scalar, decoded, Failure.fault.inj same⟩
  · rintro (⟨isYaml, scalar, decoded, rfl⟩ | holds)
    · constructor
      · rw [isYaml, parseDocument, decoded]
        rfl
      · rintro ⟨⟩
    · refine ⟨holds.parseDocument_eq, ?_⟩
      generalize DocumentFormat.ofPath path = format at holds
      rintro rfl
      cases holds

/-- A text breaks down at a number token or at a scalar. -/
theorem BreaksDown.fault_cases {path text : Text} {fault : Fault}
    (breaks : BreaksDown path text fault) :
    (∃ scalar, fault = .scalar scalar) ∨ ∃ digits, fault = .numberToken digits := by
  rcases breaksDown_iff.mp breaks with ⟨_, scalar, _, isScalar⟩ | holds
  · exact .inl ⟨scalar, isScalar⟩
  · generalize DocumentFormat.ofPath path = format at holds
    cases holds with
    | token => exact .inr ⟨_, rfl⟩
    | number => exact .inl ⟨_, rfl⟩

/-- A crawl fetches a text that breaks down just when it fetches such a scalar or integer. -/
theorem fetches_breaksDown_iff {bound : Nat} {host : Host σ} {entry : Text}
    {before : LoadState σ} :
    (∃ path text fault, ⟨.fetch path, .answer text⟩ ∈ transcript bound host entry before ∧
      BreaksDown path text fault) ↔
    FetchesBadScalar bound host entry before ∨ FetchesLongInteger bound host entry before := by
  simp only [breaksDown_iff]
  constructor
  · rintro ⟨path, text, fault, member, ⟨isYaml, scalar, decoded, _⟩ | holds⟩
    · exact .inl ⟨path, text, scalar, member, isYaml, decoded⟩
    · exact .inr ⟨path, text, fault, member, holds⟩
  · rintro (⟨path, text, scalar, member, isYaml, decoded⟩ | ⟨path, text, fault, member, holds⟩)
    · exact ⟨path, text, _, member, .inl ⟨isYaml, scalar, decoded, rfl⟩⟩
    · exact ⟨path, text, fault, member, .inr holds⟩

/-- What a document that was read came from does not break down. -/
theorem Settlement.not_breaksDown_of_mem {settlement : Settlement} (sound : settlement.Sound)
    {path text : Text} {fault : Fault}
    (member : ⟨.fetch path, .answer text⟩ ∈ settlement.exchanges) :
    ¬BreaksDown path text fault := by
  rintro ⟨failed, _⟩
  rcases Settlement.mem_exchanges.mp member with same | ⟨_, _, _, _, _, same⟩
  · cases same
    have parsed := sound.content
    rw [sound.format] at parsed
    cases parsed.symm.trans failed
  · cases same

/-- A text that breaks down makes the crawl fail with its fault. -/
theorem Halts.failure_of_breaksDown {settlements : List Settlement} {tail : List Exchange}
    {failure : Failure} (halts : Halts settlements tail failure) {path text : Text} {fault : Fault}
    (member : ⟨.fetch path, .answer text⟩ ∈ tail) (breaks : BreaksDown path text fault) :
    failure = .fault fault := by
  cases halts.haltsBy with
  | unread parsed =>
      cases List.mem_singleton.mp member
      exact Except.error.inj (parsed.symm.trans breaks.failed)
  | refused _ | unfetched | unresolved _ => cases List.mem_singleton.mp member
  | unencodable | unending => cases member

/-- A crawl that halts fails with a proper error, unless the bound does not suffice or a text that
it fetched last breaks down. -/
theorem Halts.failure_cases {settlements : List Settlement} {tail : List Exchange}
    {failure : Failure} (halts : Halts settlements tail failure)
    (proper : ∀ exchange ∈ tail, exchange.reply.Proper) :
    (∃ error, failure = .error error ∧ error.Proper) ∨ failure = .fault .unending ∨
      ∃ path text fault, ⟨.fetch path, .answer text⟩ ∈ tail ∧ BreaksDown path text fault ∧
        failure = .fault fault := by
  cases halts.haltsBy with
  | unread parsed =>
      cases failure with
      | error error =>
          rcases failure_of_parseDocument parsed with
            isProper | isUnending | ⟨_, _, isFault⟩ | ⟨_, _, _, isFault⟩
          · exact .inl isProper
          · cases isUnending
          · cases isFault
          · cases isFault
      | fault fault =>
          by_cases ends : fault = .unending
          · exact .inr (.inl (congrArg Failure.fault ends))
          · exact .inr (.inr ⟨_, _, fault, List.mem_singleton.mpr rfl, ⟨parsed, ends⟩, rfl⟩)
  | refused _ =>
      exact .inl ⟨_, rfl, (proper _ (List.mem_singleton.mpr rfl) _ rfl).locate _ _⟩
  | unfetched | unresolved _ | unencodable =>
      exact .inl ⟨_, rfl, LoadError.proper_ofTexts (by decide) rfl⟩
  | unending => exact .inr (.inl rfl)

theorem proper_of_answers {host : Host σ} (proper : host.Proper) {exchange : Exchange}
    (answers : host.Answers exchange) : exchange.reply.Proper := by
  obtain ⟨call, reply⟩ := exchange
  obtain ⟨state, isReply⟩ := answers
  cases call with
  | resolve resolution =>
      rw [← show _ = reply from isReply]
      exact proper.resolve resolution state
  | fetch path =>
      rw [← show _ = reply from isReply]
      exact proper.fetch path state
  | report notice => exact isReply.elim

/-- A crawl that ends is graceful just when it fetches no such scalar and no such integer. -/
theorem crawl_graceful_iff {host : Host σ} (proper : host.Proper) {bound : Nat} {entry : Text}
    {initial : σ} (ended : (perform (crawl bound host entry) (.start initial)).1 ≠
      .error (.fault .unending)) :
    Graceful (perform (crawl bound host entry) (.start initial)).1 ↔
      ¬(FetchesBadScalar bound host entry (.start initial) ∨
        FetchesLongInteger bound host entry (.start initial)) := by
  have replies : ∀ exchange ∈ transcript bound host entry (.start initial), exchange.reply.Proper :=
    fun exchange member => proper_of_answers proper (answers_of_mem_transcript member)
  rw [← fetches_breaksDown_iff]
  rw [perform_crawl] at ended ⊢
  obtain ⟨settlements, tail, result, after, isAfter, isTranscript, settled, ending⟩ :=
    transcribed_settled host bound entry initial
  rw [isAfter] at ended ⊢
  rw [isTranscript] at replies ⊢
  -- The text of a document that is stored was read, so only the last one can break down.
  have inTail {path text : Text} {fault : Fault}
      (member : ⟨.fetch path, .answer text⟩ ∈ settlements.flatMap Settlement.exchanges ++ tail)
      (breaks : BreaksDown path text fault) : ⟨.fetch path, .answer text⟩ ∈ tail := by
    refine (List.mem_append.mp member).resolve_left fun inside => ?_
    obtain ⟨settlement, isSettlement, isExchange⟩ := List.mem_flatMap.mp inside
    exact Settlement.not_breaksDown_of_mem (settled.sound settlement isSettlement) isExchange breaks
  rcases ending with ⟨rfl, rfl⟩ | ⟨failure, rfl, halts⟩
  · refine ⟨fun _ => ?_, fun _ => .value⟩
    rintro ⟨path, text, fault, member, breaks⟩
    cases inTail member breaks
  · constructor
    · rintro graceful ⟨path, text, fault, member, breaks⟩
      cases halts.failure_of_breaksDown (inTail member breaks) breaks
      exact not_graceful_fault graceful
    · intro noneBreaks
      rcases halts.failure_cases fun exchange member => replies exchange
          (List.mem_append_right _ member) with
        ⟨error, rfl, isProper⟩ | rfl | ⟨path, text, fault, member, breaks, _⟩
      · exact .error isProper
      · exact absurd rfl ended
      · exact absurd ⟨path, text, fault, List.mem_append_right _ member, breaks⟩ noneBreaks

/-! ## Evaluations -/

/-- An evaluation fails with a fault of an operator just when it comes to a task that commits it. -/
theorem fails_ofPath_iff {store : Store} {depth : Nat} {path : Text} {fault : Fault}
    (ofOperator : Evaluation.OfOperator fault) :
    Evaluation.Fails (Evaluation.ofPath depth store path) .start (.fault fault) ↔
      ∃ document tree last, store.find? path = some document ∧ document.content = .expr tree ∧
        Relation.ReflTransGen (Evaluation.Task.Starts store)
          ⟨depth, ⟨document.path, []⟩, document.source, [], tree, Session.start.enter path⟩ last ∧
        last.Commits store fault := by
  unfold Evaluation.ofPath
  rw [Evaluation.fails_ofDocument]
  constructor
  · rintro ⟨_, ⟨_, rfl⟩ | ⟨document, found, _, fails⟩⟩
    · cases ofOperator
    · cases isContent : document.content with
      | data value =>
          rw [isContent] at fails
          exact absurd fails Evaluation.not_fails_pure
      | expr tree =>
          rw [isContent] at fails
          have taskFails : Evaluation.Task.Fails store
            ⟨depth, ⟨document.path, []⟩, document.source, [], tree, Session.start.enter path⟩
              (.fault fault) := fails
          obtain ⟨last, reaches, commits⟩ := (Evaluation.Task.fails_iff ofOperator).mp taskFails
          exact ⟨document, tree, last, found, isContent, reaches, commits⟩
  · rintro ⟨document, tree, last, found, isContent, reaches, commits⟩
    refine ⟨rfl, .inr ⟨document, found, List.not_mem_nil, ?_⟩⟩
    rw [isContent]
    exact (Evaluation.Task.fails_iff ofOperator).mpr ⟨last, reaches, commits⟩

/-- A task only commits faults of operators. -/
theorem ofOperator_of_commits {store : Store} {task : Evaluation.Task} {fault : Fault}
    (commits : task.Commits store fault) : Evaluation.OfOperator fault := by
  obtain ⟨_, _, _, _, expr, _⟩ := task
  obtain ⟨_, _, commits⟩ := commits
  cases commits with
  | difference => exact .symbol
  | overflow => exact .overflow

theorem evaluatesToFault_iff {store : Store} {depth : Nat} {path : Text} :
    EvaluatesToFault depth store path ↔ ∃ fault, Evaluation.OfOperator fault ∧
      Evaluation.Fails (Evaluation.ofPath depth store path) .start (.fault fault) := by
  constructor
  · rintro ⟨document, tree, last, fault, found, isTree, reaches, commits⟩
    have ofOperator := ofOperator_of_commits commits
    exact ⟨fault, ofOperator,
      (fails_ofPath_iff ofOperator).mpr ⟨document, tree, last, found, isTree, reaches, commits⟩⟩
  · rintro ⟨fault, ofOperator, fails⟩
    obtain ⟨document, tree, last, found, isTree, reaches, commits⟩ :=
      (fails_ofPath_iff ofOperator).mp fails
    exact ⟨document, tree, last, fault, found, isTree, reaches, commits⟩

/-- An evaluation in a closed store that ends is graceful just when it comes to no fault. -/
theorem evaluate_graceful_iff {store : Store} (closed : store.Closed) {depth : Nat} {path : Text}
    (known : store.contains path = true)
    (ended : ((Evaluation.ofPath depth store path).perform .start).1 ≠ .error (.fault .unending)) :
    Graceful ((Evaluation.ofPath depth store path).perform .start).1 ↔
      ¬EvaluatesToFault depth store path := by
  rw [evaluatesToFault_iff]
  unfold Evaluation.Fails
  have safe := Evaluation.safe_ofPath closed depth known .start (List.forall_mem_nil _)
  rcases performed : (Evaluation.ofPath depth store path).perform .start with
    ⟨failure | value, after⟩
  · rw [performed] at safe ended
    constructor
    · rintro graceful ⟨fault, _, same⟩
      cases same
      exact not_graceful_fault graceful
    · intro noFault
      cases safe.1 with
      | error isEvaluation complete _ => exact .error ⟨by simp [isEvaluation], complete⟩
      | unending => exact absurd rfl ended
      | overflow => exact absurd ⟨_, .overflow, rfl⟩ noFault
      | difference => exact absurd ⟨_, .symbol, rfl⟩ noFault
  · refine ⟨fun _ => ?_, fun _ => .value⟩
    rintro ⟨fault, _, same⟩
    cases same

/-! ## Loads -/

/-- The result of a load, by the outcome of its crawl. -/
def resultOf (limits : Limits) (entry : Text) :
    Except Failure Unit × LoadState σ → Except Failure Json
  | (.error failure, _) => .error failure
  | (.ok _, after) =>
      match ((Evaluation.ofPath limits.depth after.store entry).perform .start).1 with
      | .error failure => .error failure
      | .ok value => value.toJson.mapError Failure.error

theorem perform_load (limits : Limits) (host : Host σ) (entry : Text) (before : LoadState σ) :
    (perform (load limits host entry) before).1 =
      resultOf limits entry (perform (crawl limits.visits host entry) before) := by
  unfold load
  rw [perform_bind]
  rcases perform (crawl limits.visits host entry) before with ⟨failure | _, after⟩
  · rfl
  · dsimp only [resultOf]
    unfold evaluate
    rw [perform_bind, perform_bind, perform_get]
    dsimp only
    cases ((Evaluation.ofPath limits.depth after.store entry).perform .start).1 with
    | error failure => rfl
    | ok value =>
        rw [perform_pure]
        dsimp only
        cases value.toJson with
        | error error => rfl
        | ok json => rfl

theorem of_resultOf_eq_ok {limits : Limits} {entry : Text} {json : Json}
    {crawled : Except Failure Unit × LoadState σ}
    (succeeded : resultOf limits entry crawled = .ok json) : ∃ value : Value,
      ((Evaluation.ofPath limits.depth crawled.2.store entry).perform .start).1 = .ok value ∧
      value.plain = .ok json := by
  obtain ⟨_ | _, after⟩ := crawled
  · cases succeeded
  · unfold resultOf at succeeded
    dsimp only at succeeded
    split at succeeded
    case h_1 => cases succeeded
    case h_2 value evaluated =>
      exact ⟨value, evaluated, of_mapError_eq_ok (of_mapError_eq_ok succeeded)⟩

/-- A load fails like its crawl or its evaluation, or for lack of plain data. -/
theorem of_resultOf_eq_error {limits : Limits} {entry : Text} {failure : Failure}
    {crawled : Except Failure Unit × LoadState σ}
    (failed : resultOf limits entry crawled = .error failure) :
    crawled.1 = .error failure ∨ crawled.1 = .ok ⟨⟩ ∧
      (((Evaluation.ofPath limits.depth crawled.2.store entry).perform .start).1 = .error failure ∨
        ∃ obstacle : Value.Obstacle, failure = .error obstacle.toError) := by
  obtain ⟨other | _, after⟩ := crawled
  · cases failed
    exact .inl rfl
  · refine .inr ⟨rfl, ?_⟩
    unfold resultOf at failed
    dsimp only at failed
    split at failed
    case h_1 evaluated =>
      cases failed
      exact .inl evaluated
    case h_2 =>
      obtain ⟨error, isError, rfl⟩ := of_mapError_eq_error failed
      obtain ⟨obstacle, _, rfl⟩ := of_mapError_eq_error isError
      exact .inr ⟨obstacle, rfl⟩

theorem graceful_toJson (value : Value) : Graceful (value.toJson.mapError Failure.error) := by
  unfold Value.toJson
  cases value.plain with
  | ok json => exact .value
  | error obstacle => exact .error obstacle.proper_toError

/-- What keeps a load from being graceful: a scalar in a YAML document that is not what its tag
promises, an integer with too many digits in a document, or an operator that commits a fault once
the crawl is over. -/
def Escapes (limits : Limits) (host : Host σ) (entry : Text) (before : LoadState σ) : Prop :=
  (FetchesBadScalar limits.visits host entry before ∨
    FetchesLongInteger limits.visits host entry before) ∨
  (perform (crawl limits.visits host entry) before).1 = .ok ⟨⟩ ∧
    EvaluatesToFault limits.depth (perform (crawl limits.visits host entry) before).2.store entry

/-- Behind a crawl that succeeds, a load is as graceful as its evaluation. -/
theorem graceful_resultOf_iff {limits : Limits} {entry : Text} {after : LoadState σ} :
    Graceful (resultOf limits entry (.ok ⟨⟩, after)) ↔
      Graceful ((Evaluation.ofPath limits.depth after.store entry).perform .start).1 := by
  unfold resultOf
  dsimp only
  cases ((Evaluation.ofPath limits.depth after.store entry).perform .start).1 with
  | ok value => exact ⟨fun _ => .value, fun _ => graceful_toJson value⟩
  | error failure => exact graceful_error_iff

/-- The evaluation behind a crawl that succeeds is graceful just when it comes to no fault: nothing
was stored before, so the crawl leaves a closed store that holds the entry. -/
theorem evaluate_crawled_graceful_iff {host : Host σ} {limits : Limits} {entry : Text} {initial : σ}
    {after : LoadState σ}
    (crawled : perform (crawl limits.visits host entry) (.start initial) = (.ok ⟨⟩, after))
    (ended : ((Evaluation.ofPath limits.depth after.store entry).perform .start).1 ≠
      .error (.fault .unending)) :
    Graceful ((Evaluation.ofPath limits.depth after.store entry).perform .start).1 ↔
      ¬EvaluatesToFault limits.depth after.store entry := by
  have isStart : Used [] [] (LoadState.start initial).store .start := .fresh
  have succeeded : (perform (crawl limits.visits host entry) (.start initial)).1 = .ok ⟨⟩ := by
    rw [crawled]
  obtain ⟨settlements, settles, _⟩ := (Used.crawl isStart succeeded).settles
  rw [crawled] at settles
  have known := settles.contains_iff.mpr
    (settles.visited entry (List.mem_append_right _ (List.mem_singleton.mpr rfl)))
  exact evaluate_graceful_iff settles.store_closed known ended

/-- A load that ends is graceful just when nothing escapes. -/
theorem load_graceful_iff {host : Host σ} (proper : host.Proper) {limits : Limits} {entry : Text}
    {initial : σ} (ended : (perform (load limits host entry) (.start initial)).1 ≠
      .error (.fault .unending)) :
    Graceful (perform (load limits host entry) (.start initial)).1 ↔
      ¬Escapes limits host entry (.start initial) := by
  have crawlGraceful := @crawl_graceful_iff σ host proper limits.visits entry initial
  rw [perform_load] at ended ⊢
  unfold Escapes
  rcases crawled : perform (crawl limits.visits host entry) (.start initial) with
    ⟨failure | ⟨⟩, after⟩
  · rw [crawled] at ended crawlGraceful
    have crawlEnded : (.error failure : Except Failure Unit) ≠ .error (.fault .unending) := by
      rintro ⟨⟩
      exact ended rfl
    have sameGraceful : Graceful (resultOf limits entry (.error failure, after)) ↔
        Graceful (.error failure : Except Failure Unit) := graceful_error_iff
    simp only [sameGraceful, crawlGraceful crawlEnded, reduceCtorEq, false_and, or_false]
  · rw [crawled] at ended crawlGraceful
    have crawlEnded : (.ok ⟨⟩ : Except Failure Unit) ≠ .error (.fault .unending) := nofun
    have noneBreaks := (crawlGraceful crawlEnded).mp .value
    have evaluationEnded : ((Evaluation.ofPath limits.depth after.store entry).perform .start).1 ≠
        .error (.fault .unending) := by
      intro same
      apply ended
      unfold resultOf
      dsimp only
      rw [same]
    have evaluationGraceful := evaluate_crawled_graceful_iff crawled evaluationEnded
    rw [graceful_resultOf_iff, evaluationGraceful]
    simp only [noneBreaks, true_and, false_or]

/-- A load of documents in memory that ends gives plain data or fails with a proper error, unless it
fetches a YAML document with a scalar that is not what its tag promises or a document that holds an
integer with too many digits, or the evaluation of the entry comes to a difference of values of
which one is no number, or to arithmetic that leaves the range of floats.  Then it does neither. -/
theorem load_memory_graceful_iff (limits : Limits) (documents : List (Text × Text)) (entry : Text)
    (ended : (perform (load limits (.memory documents) entry) (.start ())).1 ≠
      .error (.fault .unending)) :
    Graceful (perform (load limits (.memory documents) entry) (.start ())).1 ↔
      ¬Escapes limits (.memory documents) entry (.start ()) :=
  load_graceful_iff (Host.proper_memory documents) ended

/-- A document that takes a number from a text. -/
def differenceOfTexts : Host Unit := .memory [("/a.cairn", "\"a\" - 1")]

/-- The fault of a difference is no error that a host can expect. -/
theorem load_difference_not_graceful :
    (perform (load ⟨10, 10⟩ differenceOfTexts "/a.cairn") (.start ())).1 ≠
      .error (.fault .unending) ∧
    ¬Graceful (perform (load ⟨10, 10⟩ differenceOfTexts "/a.cairn") (.start ())).1 := by
  decide +kernel

theorem load_memory_graceful_iff_difference :
    Escapes ⟨10, 10⟩ differenceOfTexts "/a.cairn" (.start ()) ∧
      ¬Escapes ⟨10, 10⟩ (.memory [("/a.cairn", "2 - 1")]) "/a.cairn" (.start ()) := by
  have notGraceful :
      ¬Graceful (perform (load ⟨10, 10⟩ differenceOfTexts "/a.cairn") (.start ())).1 := by
    decide +kernel
  have graceful : Graceful (perform (load ⟨10, 10⟩ (.memory [("/a.cairn", "2 - 1")]) "/a.cairn")
      (.start ())).1 := by
    decide +kernel
  constructor
  · refine Classical.byContradiction fun noEscape => notGraceful ?_
    exact (load_memory_graceful_iff ⟨10, 10⟩ _ "/a.cairn" (by decide +kernel)).mpr noEscape
  · exact (load_memory_graceful_iff ⟨10, 10⟩ _ "/a.cairn" (by decide +kernel)).mp graceful

end ConfigGraph.Load
