import ConfigGraph.Proofs.Load.Files
import ConfigGraph.Proofs.Path.Place

/-!
# One path for each place

A host of documents in memory and one of files resolve an import that is a path to the spelling of its
destination.  So imports that lead to one place are resolved to one path, in whatever way they are
written and wherever they stand, and a load asks for its text once.
-/

namespace ConfigGraph

open ConfigGraph.Path (IsPlace destination isAbsolute isDoubled place spell)

/-- An absolute path whose root is not written with exactly two slashes. -/
structure Path.IsRooted (path : Text) : Prop where
  absolute : isAbsolute path = true
  single : isDoubled path = false

theorem Path.isRooted_spell {segments : List Text} (isPlace : IsPlace segments) :
    IsRooted (spell segments) :=
  ⟨isAbsolute_spell segments, isDoubled_spell isPlace⟩

/-- An import of the document at a path that is a path as well, of a kind. -/
structure Resolution.IsPath (isPath : Text → Prop) (base : Text) (resolution : Resolution) :
    Prop where
  isBase : resolution.base = some base
  rooted : Path.IsRooted base
  isPath : isPath resolution.written
  single : isDoubled resolution.written = false

/-- The path that spells the destination of an import of the document at a path. -/
def Resolution.spelling (resolution : Resolution) (base : Text) : Text :=
  spell (destination base resolution.written)

namespace Host

variable {σ : Type}

/-- A host that resolves imports which are paths by the walk along their segments. -/
structure Walks (host : Host σ) (isPath : Text → Prop) (known : Text → Bool) : Prop where
  reply : ∀ {resolution : Resolution} {base : Text} (state : σ), resolution.IsPath isPath base →
    (host.resolve resolution state).reply =
      replyAt known resolution.written (resolution.spelling base)
  /-- The spelling of a place leads to this place, from wherever it is seen. -/
  again : ∀ {resolution : Resolution} {segments : List Text} (state : σ), IsPlace segments →
    resolution.written = spell segments →
    (host.resolve resolution state).reply = replyAt known resolution.written resolution.written

/-! ## Hosts -/

theorem target_of_isPath {isPath : Text → Prop} {resolution : Resolution} {base : Text}
    (isImport : resolution.IsPath isPath base) :
    resolution.target = resolution.spelling base := by
  obtain ⟨written, range, _⟩ := resolution
  obtain ⟨rfl, rooted, _, single⟩ := isImport
  have atDirectory := Path.absolute_parent_eq_spell rooted.absolute rooted.single single
  obtain ⟨rest, rfl⟩ := Path.eq_cons_of_isAbsolute rooted.absolute
  exact atDirectory

theorem walks_memory (documents : List (Text × Text)) :
    (memory documents).Walks (fun _ => True) fun path => (textAt? documents path).isSome where
  reply := by
    intro resolution base state isImport
    rw [resolve_memory, target_of_isPath isImport]
    rfl
  again := by
    intro resolution segments state isPlace isSpelled
    rw [resolve_memory, Resolution.target, isSpelled,
      Path.absolute_of_isNormal _ (Path.isNormal_spell isPlace)]
    rfl

theorem walks_fileSystem (disk : Disk) (root : Text) :
    (fileSystem disk root).Walks IsPlain disk.contains where
  reply := by
    intro resolution base state isImport
    have leads := @target_fileSystem root disk resolution isImport.isPath base isImport.isBase
      isImport.rooted.absolute
    rw [target_of_isPath isImport] at leads
    exact reply_resolveFile leads state
  again := by
    intro resolution segments state isPlace isSpelled
    have leads := @target_of_isNormal root disk resolution
      (isSpelled ▸ Path.isNormal_spell isPlace)
    exact reply_resolveFile leads state

end Host

/-! ## Loads -/

namespace Load

variable {σ : Type}

/-- The paths whose texts a load asks for, in order. -/
def fetchedPaths (limits : Limits) (host : Host σ) (entry : Text) (initial : σ) : List Text :=
  (recordedLoad limits host entry initial).2.host.2.filterMap Call.fetched?

/-- The imports that a load resolves, in order. -/
def resolutions (limits : Limits) (host : Host σ) (entry : Text) (initial : σ) : List Resolution :=
  (recordedLoad limits host entry initial).2.host.2.filterMap Call.resolution?

variable {limits : Limits} {host : Host σ} {entry : Text} {initial : σ}

theorem fetchedPaths_eq : fetchedPaths limits host entry initial =
    (transcript limits.visits host entry (.start initial)).filterMap fetchedPath? := by
  rw [fetchedPaths, calls_recordedLoad, List.filterMap_map]
  rfl

theorem mem_fetchedPaths {path : Text} : path ∈ fetchedPaths limits host entry initial ↔
    ∃ reply, ⟨.fetch path, reply⟩ ∈ transcript limits.visits host entry (.start initial) := by
  rw [fetchedPaths_eq, List.mem_filterMap]
  constructor
  · rintro ⟨⟨call, reply⟩, member, isFetch⟩
    cases call with
    | fetch other =>
        cases isFetch
        exact ⟨reply, member⟩
    | resolve _ | report _ => cases isFetch
  · rintro ⟨reply, member⟩
    exact ⟨_, member, rfl⟩

theorem mem_resolutions {resolution : Resolution} :
    resolution ∈ resolutions limits host entry initial ↔
    ∃ reply, ⟨.resolve resolution, reply⟩ ∈
      transcript limits.visits host entry (.start initial) := by
  rw [resolutions, calls_recordedLoad, List.filterMap_map, List.mem_filterMap]
  constructor
  · rintro ⟨⟨call, reply⟩, member, isResolve⟩
    cases call with
    | resolve other =>
        cases isResolve
        exact ⟨reply, member⟩
    | fetch _ | report _ => cases isResolve
  · rintro ⟨reply, member⟩
    exact ⟨_, member, rfl⟩

theorem nodup_fetchedPaths : (fetchedPaths limits host entry initial).Nodup := by
  obtain ⟨settlements, tail, result, after, isAfter, _, settled, ending⟩ :=
    transcribed_settled host limits.visits entry initial
  rw [fetchedPaths_eq, transcript, isAfter]
  apply nodup_fetched settled
  rcases ending with ⟨_, noTail⟩ | ⟨failure, _, halts⟩
  · exact .inl noTail
  · exact .inr ⟨failure, halts⟩

/-- If a crawl succeeds then it has fetched the text at the path to which each import leads. -/
theorem exists_fetched_of_succeeded
    (succeeded : (perform (crawl limits.visits host entry) (.start initial)).1 = .ok ⟨⟩)
    {resolution : Resolution} (member : resolution ∈ resolutions limits host entry initial) :
    ∃ target ∈ fetchedPaths limits host entry initial,
      ⟨.resolve resolution, .answer target⟩ ∈
        transcript limits.visits host entry (.start initial) := by
  obtain ⟨reply, asked⟩ := mem_resolutions.mp member
  rw [perform_crawl] at succeeded
  rw [fetchedPaths_eq]
  rcases crawl_settled host (settled_start initial) (List.forall_mem_nil _) limits.visits entry with
    ⟨settlements, after, crawled, settled, grows, _⟩ | ⟨_, failure, _, _, crawled, _, _, _⟩
  · have isAfter : transcribed limits.visits host entry (.start initial) = (.ok ⟨⟩, after) :=
      crawled
    rw [List.nil_append] at settled
    rw [transcript, isAfter, settled.transcript_eq, List.append_nil] at asked ⊢
    rw [filterMap_fetchedPath?_exchanges]
    obtain ⟨settlement, isSettlement, isExchange⟩ := List.mem_flatMap.mp asked
    rcases Settlement.mem_exchanges.mp isExchange with
      same | ⟨index, site, target, isSite, isTarget, same⟩
    · cases same
    · cases same
      have closed := grows.closed settlement isSettlement target (List.mem_of_getElem? isTarget)
      exact ⟨target, closed, asked⟩
  · have isAfter : (transcribed limits.visits host entry (.start initial)).1 = .error failure :=
      congrArg Prod.fst crawled
    rw [isAfter] at succeeded
    cases succeeded

/-- The entry of a load, or a path that spells a place. -/
def EntryOrSpelled (entry path : Text) : Prop :=
  path = entry ∨ ∃ segments, IsPlace segments ∧ path = spell segments

theorem EntryOrSpelled.isRooted (rooted : Path.IsRooted entry) {path : Text}
    (isEither : EntryOrSpelled entry path) : Path.IsRooted path := by
  rcases isEither with rfl | ⟨segments, isPlace, rfl⟩
  · exact rooted
  · exact Path.isRooted_spell isPlace

/-- The imports of a load are paths. -/
def OnlyPaths (isPath : Text → Prop) (resolutions : List Resolution) : Prop :=
  ∀ resolution ∈ resolutions, isPath resolution.written ∧ isDoubled resolution.written = false

section

variable {isPath : Text → Prop} {known : Text → Bool} (walks : host.Walks isPath known)
  (rooted : Path.IsRooted entry)
  (onlyPaths : OnlyPaths isPath (resolutions limits host entry initial))

include walks rooted onlyPaths

theorem spelling_of_answered {resolution : Resolution} {base target : Text}
    (isBase : resolution.base = some base) (isEither : EntryOrSpelled entry base)
    (answered : ⟨.resolve resolution, .answer target⟩ ∈
      transcript limits.visits host entry (.start initial)) :
    target = resolution.spelling base := by
  obtain ⟨isWritten, single⟩ := onlyPaths resolution (mem_resolutions.mpr ⟨_, answered⟩)
  obtain ⟨state, isReply⟩ := answers_of_mem_transcript answered
  have walked := walks.reply state ⟨isBase, isEither.isRooted rooted, isWritten, single⟩
  rw [show _ = Reply.answer target from isReply] at walked
  exact (Host.replyAt_eq_answer_iff.mp walked.symm).1.symm

theorem entryOrSpelled_of_fetched {path : Text}
    (fetched : path ∈ fetchedPaths limits host entry initial) : EntryOrSpelled entry path := by
  obtain ⟨reply, asked⟩ := mem_fetchedPaths.mp fetched
  have ofEntry : EntryOrSpelled entry entry := .inl rfl
  refine holds_of_mem_transcript ofEntry ?_ asked
  intro resolution base target isBase isEither answered
  have isSpelling := spelling_of_answered walks rooted onlyPaths isBase isEither answered
  exact .inr ⟨_, Path.isPlace_destination base resolution.written, isSpelling⟩

theorem count_fetched_eq_one
    (succeeded : (perform (crawl limits.visits host entry) (.start initial)).1 = .ok ⟨⟩)
    {resolution : Resolution} (member : resolution ∈ resolutions limits host entry initial)
    {base : Text} (isBase : resolution.base = some base) :
    (fetchedPaths limits host entry initial).count (resolution.spelling base) = 1 := by
  obtain ⟨target, fetched, answered⟩ := exists_fetched_of_succeeded succeeded member
  obtain ⟨owner, text, isOwner, ownerFetched⟩ :=
    transcript_grounded limits.visits host entry initial resolution _ answered
  cases isBase.symm.trans isOwner
  have isEither := entryOrSpelled_of_fetched walks rooted onlyPaths
    (mem_fetchedPaths.mpr ⟨_, ownerFetched⟩)
  rw [← spelling_of_answered walks rooted onlyPaths isBase isEither answered]
  exact List.count_eq_one_of_mem nodup_fetchedPaths fetched

end

end Load

/-! ## Canonical paths -/

/-- A host that has one path for each place, as far as imports are paths of a kind.  It knows the
documents at some paths. -/
structure Host.Canonical {σ : Type} (host : Host σ) (isPath : Text → Prop) (known : Text → Bool) :
    Prop where
  /-- An import is resolved if there is a document at its destination, and refused otherwise. -/
  resolved : ∀ (resolution : Resolution) (base : Text) (state : σ), resolution.IsPath isPath base →
    (host.resolve resolution state).reply =
      replyAt known resolution.written (spell (destination base resolution.written))
  /-- The path to which an import is resolved spells its destination, all segments of which go down.
  It is resolved to itself wherever it is written. -/
  answered : ∀ (resolution : Resolution) (base path : Text) (state : σ),
    resolution.IsPath isPath base → (host.resolve resolution state).reply = .answer path →
    path = spell (destination base resolution.written) ∧
      IsPlace (destination base resolution.written) ∧
      ∀ (other : Resolution) (later : σ), other.written = path →
        (host.resolve other later).reply = .answer path
  /-- Imports are resolved to the same path if they have the same destination, and only then. -/
  same : ∀ (first second : Resolution) (firstBase secondBase path other : Text) (state later : σ),
    first.IsPath isPath firstBase → second.IsPath isPath secondBase →
    (host.resolve first state).reply = .answer path →
    (host.resolve second later).reply = .answer other →
    (path = other ↔ destination firstBase first.written = destination secondBase second.written)
  /-- A load fetches no text twice, and apart from its entry only at paths that spell places.  If all
  documents can be read, it fetches the text at the destination of each import, and this once. -/
  once : ∀ (limits : Load.Limits) (entry : Text) (initial : σ), Path.IsRooted entry →
    Load.OnlyPaths isPath (Load.resolutions limits host entry initial) →
    (Load.fetchedPaths limits host entry initial).Nodup ∧
      (∀ path ∈ Load.fetchedPaths limits host entry initial,
        path = entry ∨ ∃ segments, IsPlace segments ∧ path = spell segments) ∧
      ((Load.perform (Load.crawl limits.visits host entry) (.start initial)).1 = .ok ⟨⟩ →
        ∀ resolution ∈ Load.resolutions limits host entry initial, ∀ base,
          resolution.base = some base →
          (Load.fetchedPaths limits host entry initial).count
            (spell (destination base resolution.written)) = 1)

theorem Host.Walks.canonical {σ : Type} {host : Host σ} {isPath : Text → Prop}
    {known : Text → Bool} (walks : host.Walks isPath known) : host.Canonical isPath known where
  resolved resolution base state isImport := walks.reply state isImport
  answered := by
    intro resolution base path state isImport isAnswer
    rw [walks.reply state isImport, replyAt_eq_answer_iff] at isAnswer
    obtain ⟨rfl, isKnown⟩ := isAnswer
    have isPlace := Path.isPlace_destination base resolution.written
    refine ⟨rfl, isPlace, fun other later isWritten => ?_⟩
    rw [walks.again later isPlace isWritten, isWritten, replyAt_eq_answer_iff]
    exact ⟨rfl, isKnown⟩
  same := by
    intro first second firstBase secondBase path other state later isFirst isSecond answer
      otherAnswer
    rw [walks.reply state isFirst, replyAt_eq_answer_iff] at answer
    rw [walks.reply later isSecond, replyAt_eq_answer_iff] at otherAnswer
    obtain ⟨rfl, _⟩ := answer
    obtain ⟨rfl, _⟩ := otherAnswer
    exact Path.spell_inj (Path.isPlace_destination _ _) (Path.isPlace_destination _ _)
  once := by
    intro limits entry initial rooted onlyPaths
    refine ⟨Load.nodup_fetchedPaths, fun path fetched => ?_, ?_⟩
    · exact Load.entryOrSpelled_of_fetched walks rooted onlyPaths fetched
    · intro succeeded resolution member base isBase
      exact Load.count_fetched_eq_one walks rooted onlyPaths succeeded member isBase

/-- Hosts of documents in memory and of files have one path for each place.

Let an import stand in a document with an absolute path, let it be no URI for the host of files, and
let neither path start with exactly two slashes.  Then the import is resolved to the path that spells
its destination, if there is a document.  Imports with one destination are resolved to one path, and
this path to itself.  A load whose imports are such paths fetches the text of each document to which
they lead once. -/
theorem Host.canonical_memory_fileSystem (documents : List (Text × Text)) (disk : Disk)
    (root : Text) :
    (memory documents).Canonical (fun _ => True)
        (fun path => documents.any fun document => document.1 == path) ∧
      (fileSystem disk root).Canonical IsPlain disk.contains := by
  constructor
  · have walks := walks_memory documents
    simp only [isSome_textAt?] at walks
    exact walks.canonical
  · exact (walks_fileSystem disk root).canonical

/-- A document that imports another one twice, with two spellings. -/
def twoSpellings : List (Text × Text) :=
  [("/d/a.cairn", "[import \".//b.cairn\", import \"../../d/b.cairn\"]"), ("/d/b.cairn", "1")]

/-- Both spellings lead to one path, whose text is fetched once. -/
theorem Host.canonical_memory_fileSystem_twoSpellings :
    Load.resolutions ⟨9, 9⟩ (.memory twoSpellings) "/d/a.cairn" () =
      [⟨".//b.cairn", ⟨⟨0, 1⟩, ⟨0, 20⟩⟩, some "/d/a.cairn"⟩,
        ⟨"../../d/b.cairn", ⟨⟨0, 22⟩, ⟨0, 46⟩⟩, some "/d/a.cairn"⟩] ∧
    (Load.fetchedPaths ⟨9, 9⟩ (.memory twoSpellings) "/d/a.cairn" ()).count
      (spell (destination "/d/a.cairn" "../../d/b.cairn")) = 1 := by
  have listed : Load.resolutions ⟨9, 9⟩ (.memory twoSpellings) "/d/a.cairn" () =
      [⟨".//b.cairn", ⟨⟨0, 1⟩, ⟨0, 20⟩⟩, some "/d/a.cairn"⟩,
        ⟨"../../d/b.cairn", ⟨⟨0, 22⟩, ⟨0, 46⟩⟩, some "/d/a.cairn"⟩] := by
    decide +kernel
  refine ⟨listed, ?_⟩
  obtain ⟨canonical, _⟩ := canonical_memory_fileSystem twoSpellings ⟨[], "/"⟩ "/"
  have onlyPaths : Load.OnlyPaths (fun _ => True)
      (Load.resolutions ⟨9, 9⟩ (.memory twoSpellings) "/d/a.cairn" ()) := by
    rw [listed]
    intro resolution member
    refine ⟨trivial, ?_⟩
    revert resolution
    decide
  obtain ⟨_, _, once⟩ := canonical.once ⟨9, 9⟩ "/d/a.cairn" () ⟨by decide, by decide⟩ onlyPaths
  have succeeded : (Load.perform (Load.crawl 9 (.memory twoSpellings) "/d/a.cairn")
      (.start ())).1 = .ok ⟨⟩ :=
    Load.ok_of_isOk (by decide +kernel)
  refine once succeeded ⟨"../../d/b.cairn", ⟨⟨0, 22⟩, ⟨0, 46⟩⟩, some "/d/a.cairn"⟩ ?_ _ rfl
  rw [listed]
  exact List.mem_cons_of_mem _ List.mem_cons_self

end ConfigGraph
