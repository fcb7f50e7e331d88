import ConfigGraph.Proofs.Load.Taxonomy
import ConfigGraph.Proofs.Position

/-!
# Where the errors of a load are

An error of a load that has a range names a document whose text was fetched, and the range is that
of an interval inside of this text.  The interval is empty if the document cannot be read, that of
an import if that cannot be resolved, and that of a node of its tree if the evaluation fails, no
matter from which document the code at that node was called.
-/

namespace ConfigGraph

/-! ## Documents that cannot be read -/

/-- The range of any offset is that of an empty interval inside of the text. -/
theorem rangeAt_eq_rangeIn (text : Text) (offset : Int) :
    ∃ inside ≤ text.length, rangeAt text offset = Span.rangeIn text ⟨inside, inside⟩ := by
  refine ⟨min offset.toNat text.length, Nat.min_le_right _ _, ?_⟩
  unfold rangeAt Span.rangeIn positionAt
  rw [Int.toNat_natCast]
  congr 2
  rcases Nat.le_total offset.toNat text.length with inside | beyond
  · rw [Nat.min_eq_left inside]
  · rw [Nat.min_eq_right beyond, List.take_length, List.take_of_length_le beyond]

/-- An error of a document that cannot be read, at one place of it or in the whole. -/
structure LoadError.OfSource (source : Source) (error : LoadError) : Prop where
  kind : error.kind = .parse
  path : error.path = some source.path
  range : ∀ range, error.range = some range → ∃ offset : Int, range = rangeAt source.text offset

theorem LoadError.ofSource_ofTexts {code : ErrorCode} {details : List (Text × Text)}
    {source : Source} (offset : Int) :
    (ofTexts .parse code details (some source.path)
      (some (rangeAt source.text offset))).OfSource source := by
  refine ⟨rfl, rfl, fun range isRange => ?_⟩
  cases isRange
  exact ⟨offset, rfl⟩

theorem SyntaxFault.ofSource_of_toFailure {source : Source} {fault : SyntaxFault}
    {error : LoadError} (failed : fault.toFailure source = .error error) :
    error.OfSource source := by
  cases fault with
  | unexpected _ _ | invalidCharacter _ _ | invalidEscape _ =>
      cases failed
      exact LoadError.ofSource_ofTexts _
  | tooManyDigits _ => cases failed

theorem ofSource_of_jsonFailure {source : Source} {fault : Json.Fault} {error : LoadError}
    (failed : jsonFailure source fault = .error error) : error.OfSource source := by
  rcases jsonFailure_cases source fault with isError | ⟨digits, _, isFault⟩
  · rw [isError] at failed
    cases failed
    exact LoadError.ofSource_ofTexts _
  · rw [isFault] at failed
    cases failed

theorem ofSource_yamlError (source : Source) (details : Text) (offset : Option Nat) :
    (yamlError source details offset).OfSource source := by
  cases offset with
  | some offset => exact LoadError.ofSource_ofTexts _
  | none => exact ⟨rfl, rfl, fun range isRange => nomatch isRange⟩

/-- A document that cannot be read is an error of its own. -/
theorem ofSource_of_parseDocument {source : Source} {format : DocumentFormat} {error : LoadError}
    (failed : parseDocument source format = .error (.error error)) : error.OfSource source := by
  cases format with
  | cairn =>
      simp only [parseDocument] at failed
      split at failed
      · cases failed
      · exact SyntaxFault.ofSource_of_toFailure (Except.error.inj failed)
  | json =>
      simp only [parseDocument] at failed
      split at failed
      · cases failed
      · exact ofSource_of_jsonFailure (Except.error.inj failed)
  | yaml =>
      simp only [parseDocument] at failed
      split at failed
      case h_1 => cases failed
      case h_2 fault decoded =>
        cases fault <;> cases failed
        · exact ofSource_yamlError source _ none
        · exact ofSource_yamlError source _ (some _)

namespace Load

/-! ## Places of errors -/

/-- An interval of a text that was fetched, and the range that stands for it: the positions behind
the texts in front of its two ends. -/
def InFetched (exchanges : List Exchange) (path : Text) (range : Range) : Prop :=
  ∃ text span, ⟨.fetch path, .answer text⟩ ∈ exchanges ∧ Span.Inside text span ∧
    range = ⟨.behind (text.take span.start), .behind (text.take span.stop)⟩ ∧
    range = span.rangeIn text ∧ rangeOfSpan? text (some span) = .ok range

theorem inFetched_of_inside {exchanges : List Exchange} {path text : Text} {span : Span}
    (fetched : ⟨.fetch path, .answer text⟩ ∈ exchanges) (inside : span.Inside text) :
    InFetched exchanges path (span.rangeIn text) :=
  ⟨text, span, fetched, inside, span.rangeIn_eq_behind text, rfl, rangeOfSpan?_of_inside inside⟩

/-- A document whose text was fetched, and whose content is what that text says. -/
structure IsRead (exchanges : List Exchange) (document : Document) : Prop where
  fetched : ⟨.fetch document.path, .answer document.source.text⟩ ∈ exchanges
  parsed : parseDocument document.source (.ofPath document.path) = .ok document.content

/-- Where an error of a load is, in terms of what was fetched and of the documents that were
read. -/
structure Placed (exchanges : List Exchange) (documents : List Document) (error : LoadError) :
    Prop where
  read : ∀ document ∈ documents, IsRead exchanges document
  /-- An error with a range names a document that was fetched. -/
  fetched : ∀ range, error.range = some range →
    ∃ path, error.path = some path ∧ InFetched exchanges path range
  /-- An evaluation fails at a node of a document, unless a document needs itself. -/
  node : error.kind = .evaluation → error.code ≠ .infiniteRecursion →
    ∃ document ∈ documents, ∃ tree, document.content = .expr tree ∧ ∃ node ∈ tree.nodes,
      error.path = some document.path ∧
        error.range = some (node.span.rangeIn document.source.text)
  /-- What cannot be resolved is an import of a document. -/
  site : error.kind = .encoding ∨ error.kind = .resolution →
    ∃ document ∈ documents, ∃ site ∈ document.content.imports,
      error.path = some document.path ∧
        error.range = some (site.span.rangeIn document.source.text)
  /-- What cannot be read has an empty range. -/
  point : error.kind = .parse → ∀ range, error.range = some range → range.start = range.stop

variable {exchanges : List Exchange} {documents : List Document}

/-- An error without a range, of a document that cannot be fetched or of a value that is no plain
data. -/
theorem placed_of_noRange {error : LoadError}
    (read : ∀ document ∈ documents, IsRead exchanges document)
    (isKind : error.kind = .fetch ∨ error.kind = .serialization) (noRange : error.range = none) :
    Placed exchanges documents error := by
  obtain ⟨kind, _, _, range, _⟩ := error
  obtain rfl : range = none := noRange
  obtain rfl | rfl : kind = .fetch ∨ kind = .serialization := isKind
  · exact ⟨read, nofun, nofun, nofun, nofun⟩
  · exact ⟨read, nofun, nofun, nofun, nofun⟩

theorem placed_of_ofSource {source : Source} {error : LoadError}
    (ofSource : error.OfSource source)
    (read : ∀ document ∈ documents, IsRead exchanges document)
    (fetched : ⟨.fetch source.path, .answer source.text⟩ ∈ exchanges) :
    Placed exchanges documents error := by
  obtain ⟨isKind, isPath, atOffset⟩ := ofSource
  obtain ⟨kind, _, path, range, _⟩ := error
  obtain rfl : kind = .parse := isKind
  refine ⟨read, ?_, nofun, nofun, ?_⟩
  · intro given isRange
    obtain ⟨offset, rfl⟩ := atOffset given isRange
    obtain ⟨inside, bound, same⟩ := rangeAt_eq_rangeIn source.text offset
    rw [same]
    exact ⟨source.path, isPath, inFetched_of_inside fetched ⟨Nat.le_refl _, bound⟩⟩
  · intro _ given isRange
    obtain ⟨offset, rfl⟩ := atOffset given isRange
    rfl

/-- The range of an interval inside of a document that is read. -/
theorem IsRead.fetched_of_range {error : LoadError} {document : Document} {span : Span}
    (isRead : IsRead exchanges document) (inside : span.Inside document.source.text)
    (isPath : error.path = some document.path)
    (isRange : error.range = some (span.rangeIn document.source.text)) (range : Range)
    (given : error.range = some range) :
    ∃ path, error.path = some path ∧ InFetched exchanges path range := by
  cases isRange.symm.trans given
  exact ⟨document.path, isPath, inFetched_of_inside isRead.fetched inside⟩

/-- An error at an import of a document. -/
theorem placed_of_site {error : LoadError} {document : Document} {site : Expr.ImportSite}
    (read : ∀ document ∈ documents, IsRead exchanges document)
    (member : document ∈ documents) (isSite : site ∈ document.content.imports)
    (inside : site.span.Inside document.source.text)
    (isKind : error.kind = .encoding ∨ error.kind = .resolution)
    (isPath : error.path = some document.path)
    (isRange : error.range = some (site.span.rangeIn document.source.text)) :
    Placed exchanges documents error := by
  have fetched := (read document member).fetched_of_range inside isPath isRange
  obtain ⟨kind, _, _, _, _⟩ := error
  obtain rfl | rfl : kind = .encoding ∨ kind = .resolution := isKind
  · exact ⟨read, fetched, nofun, fun _ => ⟨document, member, site, isSite, isPath, isRange⟩, nofun⟩
  · exact ⟨read, fetched, nofun, fun _ => ⟨document, member, site, isSite, isPath, isRange⟩, nofun⟩

/-- An error of an evaluation that goes as it should. -/
theorem placed_of_located {error : LoadError}
    (read : ∀ document ∈ documents, IsRead exchanges document)
    (isEvaluation : error.kind = .evaluation) (located : Evaluation.Located documents error) :
    Placed exchanges documents error := by
  cases located with
  | recursion isRecursion noRange =>
      obtain ⟨kind, _, _, range, _⟩ := error
      obtain rfl : kind = .evaluation := isEvaluation
      obtain rfl : range = none := noRange
      exact ⟨read, nofun, fun _ otherCode => absurd isRecursion otherCode, nofun, nofun⟩
  | node place isPath isRange =>
      obtain ⟨document, member, tree, rfl, isTree, node, isNode, rfl⟩ := place.node
      have fetched := (read document member).fetched_of_range place.inside isPath isRange
      obtain ⟨kind, _, _, _, _⟩ := error
      obtain rfl : kind = .evaluation := isEvaluation
      exact ⟨read, fetched,
        fun _ _ => ⟨document, member, tree, isTree, node, isNode, isPath, isRange⟩, nofun, nofun⟩

/-! ## Crawls -/

theorem Settled.isRead {σ : Type} {settlements : List Settlement} {tail : List Exchange}
    {state : LoadState (σ × List Exchange)} (settled : Settled [] settlements tail state) :
    ∀ document ∈ state.store.documents, IsRead state.host.2 document := by
  intro document member
  rw [settled.documents] at member
  obtain ⟨settlement, isSettlement, rfl⟩ := List.mem_map.mp member
  have sound := settled.sound settlement isSettlement
  constructor
  · rw [settled.transcript_eq]
    apply List.mem_append_left
    exact List.mem_flatMap.mpr ⟨settlement, isSettlement, List.mem_cons_self⟩
  · rw [← sound.format]
    exact sound.content

/-- What a crawl of documents in memory fails with is placed. -/
theorem Halts.placed {given : List (Text × Text)} {σ : Type} {settlements : List Settlement}
    {tail : List Exchange} {state : LoadState (σ × List Exchange)} {error : LoadError}
    (halts : Halts settlements tail (.error error)) (settled : Settled [] settlements tail state)
    (answers : ∀ exchange ∈ state.host.2, (Host.memory given).Answers exchange) :
    Placed state.host.2 state.store.documents error := by
  have read := settled.isRead
  have inTail {exchange : Exchange} (member : exchange ∈ tail) : exchange ∈ state.host.2 := by
    rw [settled.transcript_eq]
    exact List.mem_append_right _ member
  cases halts with
  | @unread _ path reply _ _ _ failed =>
      have asked := inTail List.mem_cons_self
      cases reply with
      | answer text =>
          simp only [readFailure?] at failed
          split at failed
          case h_1 => cases failed
          case h_2 parsed =>
            cases failed
            exact placed_of_ofSource (ofSource_of_parseDocument parsed) read asked
      | refused refusal =>
          cases Host.refused_fetch_memory (answers _ asked)
          cases failed
          exact placed_of_noRange read (.inl rfl) rfl
      | broken reason => exact absurd (answers _ asked) Host.not_broken_memory
  | @inside others last _ _ _ inside =>
      have isLast : last ∈ others ++ [last] := List.mem_append_right _ List.mem_cons_self
      have member : last.document ∈ state.store.documents := by
        rw [settled.documents]
        exact List.mem_map_of_mem isLast
      have sitesIn := sitesIn_of_parseDocument (settled.sound last isLast).content
      cases inside with
      | unencodable next _ =>
          have isSite := List.mem_of_getElem? next
          exact placed_of_site read member isSite (sitesIn.span_inside isSite) (.inl rfl) rfl rfl
      | @unresolved _ reply _ next _ failed =>
          have isSite := List.mem_of_getElem? next
          have asked := inTail List.mem_cons_self
          cases reply with
          | answer target => cases failed
          | refused refusal =>
              cases Host.refused_resolve_memory (answers _ asked)
              cases failed
              exact placed_of_site read member isSite (sitesIn.span_inside isSite) (.inr rfl) rfl
                rfl
          | broken reason => exact absurd (answers _ asked) Host.not_broken_memory

/-- The spans of imports are inside of the text and come in order, so their ranges can be found. -/
theorem Halts.not_misstep {settlements : List Settlement} {tail : List Exchange}
    {failure : Failure} (halts : Halts settlements tail failure)
    (proper : ∀ exchange ∈ tail, exchange.reply.Proper) (misstep : Cursor.Misstep) :
    failure ≠ .fault (.misstep misstep) := by
  rintro rfl
  rcases halts.failure_cases proper with ⟨_, same, _⟩ | same | ⟨_, _, _, _, breaks, same⟩
  · cases same
  · cases same
  · cases same
    rcases breaks.fault_cases with ⟨_, same⟩ | ⟨_, same⟩ <;> cases same

/-! ## Loads -/

variable {σ τ : Type} {change : σ → τ} {host : Host σ} {other : Host τ}

/-- Behind its crawl a load only writes into the log. -/
theorem perform_load_state (limits : Limits) (host : Host σ) (entry : Text)
    (before : LoadState σ) :
    (perform (load limits host entry) before).2.host =
        (perform (crawl limits.visits host entry) before).2.host ∧
      (perform (load limits host entry) before).2.store =
        (perform (crawl limits.visits host entry) before).2.store := by
  unfold load
  rw [perform_bind]
  rcases perform (crawl limits.visits host entry) before with ⟨failure | _, after⟩
  · exact ⟨rfl, rfl⟩
  · dsimp only
    unfold evaluate
    rw [perform_bind, perform_bind, perform_get]
    dsimp only
    cases ((Evaluation.ofPath limits.depth after.store entry).perform .start).1 with
    | error failure => exact ⟨rfl, rfl⟩
    | ok value =>
        rw [perform_pure]
        dsimp only
        cases value.toJson <;> exact ⟨rfl, rfl⟩

/-- Once all that an entry leads to is read, a load finds the range of each error, and fails at a
node of a document or at no range. -/
theorem resultOf_placed {limits : Limits} {entry : Text} {after : LoadState σ}
    (closed : after.store.Closed) (known : after.store.contains entry = true)
    (read : ∀ document ∈ after.store.documents, IsRead exchanges document) :
    (∀ misstep, resultOf limits entry (.ok ⟨⟩, after) ≠ .error (.fault (.misstep misstep))) ∧
      ∀ error, resultOf limits entry (.ok ⟨⟩, after) = .error (.error error) →
        Placed exchanges after.store.documents error := by
  have safe := Evaluation.safe_ofPath closed limits.depth known
  have remembers : Evaluation.Remembers after.store.documents .start := List.forall_mem_nil _
  constructor
  · intro misstep failed
    rcases of_resultOf_eq_error failed with halted | ⟨_, evaluated | ⟨obstacle, same⟩⟩
    · cases halted
    · cases safe.expected remembers evaluated
    · cases same
  · intro error failed
    rcases of_resultOf_eq_error failed with halted | ⟨_, evaluated | ⟨obstacle, same⟩⟩
    · cases halted
    · cases safe.expected remembers evaluated with
      | error isEvaluation _ located => exact placed_of_located read isEvaluation located
    · cases same
      cases obstacle <;> exact placed_of_noRange read (.inr rfl) rfl

/-- Where the errors of a load of documents in memory are.

The load is that with a transcript, which changes nothing else.  It finds the range of each error.
An error with a range names a path that was fetched, and the range is that of an interval of the
text that came: its lines and UTF-16 code units are counted from the start of that text
(`Position.behind`).  It is the range of a node in the tree of the document with that path if the
evaluation fails, unless a document needs itself, the range of an import if that cannot be encoded
or resolved, and empty if the document cannot be read. -/
theorem load_memory_errors_placed (limits : Limits) (documents : List (Text × Text))
    (entry : Text) :
    ∃ result after,
      perform (load limits (Host.memory documents).transcribed entry) (.start ((), [])) =
        (result, after) ∧
      perform (load limits (.memory documents) entry) (.start ()) =
        (result, after.mapHost Prod.fst) ∧
      (∀ misstep, result ≠ .error (.fault (.misstep misstep))) ∧
      ∀ error, result = .error (.error error) →
        Placed after.host.2 after.store.documents error := by
  refine ⟨(perform (load limits (Host.memory documents).transcribed entry) (.start ((), []))).1,
    (perform (load limits (Host.memory documents).transcribed entry) (.start ((), []))).2, rfl,
    load_follows (Host.transcribed_follows _) limits entry (.start ((), [])), ?_⟩
  have answers : ∀ exchange ∈ (transcribed limits.visits (.memory documents) entry
      (.start ())).2.host.2, (Host.memory documents).Answers exchange :=
    fun exchange member => answers_of_mem_transcript member
  obtain ⟨sameHost, sameStore⟩ := perform_load_state limits (Host.memory documents).transcribed
    entry (.start ((), []))
  rw [perform_load, sameHost, sameStore]
  rcases crawl_settled (.memory documents) (settled_start ()) (List.forall_mem_nil _) limits.visits
      entry with
    ⟨settlements, after, crawled, settled, _, _⟩ |
    ⟨settlements, failure, tail, after, crawled, settled, halts, _⟩
  · have succeeded : (perform (crawl limits.visits (Host.memory documents).transcribed entry)
        (.start ((), []))).1 = .ok ⟨⟩ := by
      rw [crawled]
    have isStart : Used [] [] (LoadState.start ((), ([] : List Exchange))).store .start := .fresh
    obtain ⟨others, settles, _⟩ := (Used.crawl isStart succeeded).settles
    have known := settles.contains_iff.mpr
      (settles.visited entry (List.mem_append_right _ (List.mem_singleton.mpr rfl)))
    have closed := settles.store_closed
    rw [crawled] at known closed ⊢
    exact resultOf_placed closed known settled.isRead
  · have isAfter : transcribed limits.visits (.memory documents) entry (.start ()) =
        (.error failure, after) := crawled
    rw [isAfter] at answers
    rw [crawled]
    rw [List.nil_append] at settled halts
    constructor
    · rintro misstep same
      cases same
      refine halts.not_misstep (fun exchange member => ?_) misstep rfl
      apply proper_of_answers (Host.proper_memory documents) (answers exchange ?_)
      rw [settled.transcript_eq]
      exact List.mem_append_right _ member
    · rintro error same
      cases same
      exact halts.placed settled answers

/-- The body of a function fails in the document in which it stands, not in the one that calls
it. -/
example :
    (match (perform (load ⟨10, 10⟩ (.memory [("/a.cairn", "(import \"f.cairn\")(1)"),
        ("/f.cairn", "fun x => x.y")]) "/a.cairn") (.start ())).1 with
      | .error (.error error) => (error.path, error.range)
      | _ => (none, none)) =
      (some (.ofString "/f.cairn"), some ⟨⟨0, 9⟩, ⟨0, 12⟩⟩) := by
  decide +kernel

end Load

end ConfigGraph
