import ConfigGraph.Proofs.Host.FileSystem
import ConfigGraph.Proofs.Load.Reach

/-!
# Documents in memory and in files

The host of documents in memory stands for that of files with the same texts.  A load of either comes
to the same, as long as no import is a URI.
-/

namespace ConfigGraph

/-! ## Replies -/

/-- What both hosts are asked in the same way: to resolve an import that is no URI, of a document
with an absolute path, or for the text of a document that is there. -/
def Common (documents : List (Text × Text)) : Call → Prop
  | .resolve resolution =>
      IsPlain resolution.written ∧
        ∃ owner, resolution.base = some owner ∧ Path.isAbsolute owner = true
  | .fetch path => (textAt? documents path).isSome = true
  | .report _ => True

namespace Host

variable {documents : List (Text × Text)} {directory root : Text}

theorem agreesOn_fileSystem (portable : Portable documents) {call : Call}
    (common : Common documents call) :
    (memory documents).AgreesOn (fileSystem (.ofTexts documents directory) root) call := by
  cases call with
  | resolve resolution =>
      obtain ⟨isPlain, owner, isBase, absolute⟩ := common
      intro state findings
      rw [resolve_memory]
      simp only [fileSystem, resolveFile, target_fileSystem isPlain isBase absolute,
        Disk.contains_ofTexts]
      split_ifs <;> rfl
  | fetch path =>
      obtain ⟨text, found⟩ := Option.isSome_iff_exists.mp common
      intro state findings
      rw [fetch_memory, fetch_fileSystem portable found, found]
  | report notice => trivial

end Host

/-! ## Loads -/

namespace Load

variable {σ : Type} {documents : List (Text × Text)}

/-- No import among some calls is a URI. -/
def PlainCalls (calls : List Call) : Prop :=
  ∀ resolution, .resolve resolution ∈ calls → IsPlain resolution.written

/-- A load asks for documents that are there, if its host resolves imports to those only. -/
theorem common_of_mem_transcript {host : Host σ} {bound : Nat} {entry : Text} {initial : σ}
    (portable : Portable documents) (isDocument : (textAt? documents entry).isSome = true)
    (known : ∀ resolution path, host.Answers ⟨.resolve resolution, .answer path⟩ →
      (textAt? documents path).isSome = true)
    (plain : PlainCalls ((transcript bound host entry (.start initial)).map Exchange.call))
    {exchange : Exchange} (member : exchange ∈ transcript bound host entry (.start initial)) :
    Common documents exchange.call := by
  have fetched {path : Text} {reply : Reply}
      (asked : ⟨.fetch path, reply⟩ ∈ transcript bound host entry (.start initial)) :
      (textAt? documents path).isSome = true := by
    rcases transcript_prompted bound host entry initial path reply asked with
      isEntry | ⟨resolution, answered⟩
    · rw [List.mem_singleton.mp isEntry]
      exact isDocument
    · exact known resolution path (answers_of_mem_transcript answered)
  obtain ⟨call, reply⟩ := exchange
  cases call with
  | resolve resolution =>
      obtain ⟨owner, text, isBase, asked⟩ :=
        transcript_grounded bound host entry initial resolution reply member
      obtain ⟨content, found⟩ := Option.isSome_iff_exists.mp (fetched asked)
      exact ⟨plain resolution (List.mem_map.mpr ⟨_, member, rfl⟩), owner, isBase,
        portable.absolute _ (mem_of_textAt? found)⟩
  | fetch path => exact fetched member
  | report notice => trivial

/-- Documents with absolute paths are loaded from memory as from files.

The entry is one of the documents, no text holds surrogates or starts with a byte order mark, and
one of the loads resolves no import that is a URI.  Then both loads come to the same result, and the
same documents and paths of imports are stored, whatever the root and the directory of the files. -/
theorem load_files_eq (limits : Limits) {documents : List (Text × Text)} {entry : Text}
    (directory root : Text) (portable : Portable documents)
    (isDocument : (textAt? documents entry).isSome = true)
    (plain :
      PlainCalls (recordedLoad limits (.memory documents) entry ()).2.host.2 ∨
      PlainCalls (recordedLoad limits (.fileSystem (.ofTexts documents directory) root) entry
        .empty).2.host.2) :
    (perform (load limits (.fileSystem (.ofTexts documents directory) root) entry)
        (.start .empty)).1 =
      (perform (load limits (.memory documents) entry) (.start ())).1 ∧
    (perform (load limits (.fileSystem (.ofTexts documents directory) root) entry)
        (.start .empty)).2.store =
      (perform (load limits (.memory documents) entry) (.start ())).2.store := by
  rw [calls_recordedLoad, calls_recordedLoad] at plain
  rw [perform_load_eq, perform_load_eq]
  rcases plain with plainMemory | plainFiles
  · have agrees : ∀ exchange ∈ transcript limits.visits (.memory documents) entry (.start ()),
        (Host.memory documents).AgreesOn (.fileSystem (.ofTexts documents directory) root)
          exchange.call := by
      intro exchange member
      refine Host.agreesOn_fileSystem portable ?_
      exact common_of_mem_transcript portable isDocument
        (fun _ _ answers => answers.target_memory.2) plainMemory member
    obtain ⟨sameResult, sameStore, _⟩ := load_replay agrees .empty
    exact ⟨sameResult, sameStore⟩
  · have agrees : ∀ exchange ∈ transcript limits.visits
        (.fileSystem (.ofTexts documents directory) root) entry (.start .empty),
        (Host.fileSystem (.ofTexts documents directory) root).AgreesOn (.memory documents)
          exchange.call := by
      intro exchange member
      refine (Host.agreesOn_fileSystem portable ?_).symm
      exact common_of_mem_transcript portable isDocument
        (fun _ _ answers => answers.contains_fileSystem) plainFiles member
    obtain ⟨sameResult, sameStore, _⟩ := load_replay agrees ()
    exact ⟨sameResult.symm, sameStore.symm⟩

/-- Two documents, one of which imports the other one from the directory above. -/
def importFromAbove : List (Text × Text) :=
  [("/d/a.cairn", "import \"..//./b.cairn\""), ("/b.cairn", "\x7bx = 1\x7d")]

/-- Both loads succeed, with the same documents and the same paths of imports. -/
theorem load_files_eq_importFromAbove :
    (perform (load ⟨5, 9⟩ (.memory importFromAbove) "/d/a.cairn") (.start ())).1.isOk = true ∧
    (perform (load ⟨5, 9⟩ (.fileSystem (.ofTexts importFromAbove "/tmp") "/srv") "/d/a.cairn")
        (.start .empty)).1 =
      (perform (load ⟨5, 9⟩ (.memory importFromAbove) "/d/a.cairn") (.start ())).1 ∧
    (perform (load ⟨5, 9⟩ (.fileSystem (.ofTexts importFromAbove "/tmp") "/srv") "/d/a.cairn")
        (.start .empty)).2.store.documents =
      (perform (load ⟨5, 9⟩ (.memory importFromAbove) "/d/a.cairn")
        (.start ())).2.store.documents ∧
    (perform (load ⟨5, 9⟩ (.fileSystem (.ofTexts importFromAbove "/tmp") "/srv") "/d/a.cairn")
        (.start .empty)).2.store.imports =
      (perform (load ⟨5, 9⟩ (.memory importFromAbove) "/d/a.cairn") (.start ())).2.store.imports := by
  have portable : Portable importFromAbove := by
    constructor <;> decide +kernel
  have calls : (recordedLoad ⟨5, 9⟩ (.memory importFromAbove) "/d/a.cairn" ()).2.host.2 =
      [.fetch "/d/a.cairn",
        .resolve ⟨"..//./b.cairn", ⟨⟨0, 0⟩, ⟨0, 22⟩⟩, some "/d/a.cairn"⟩, .fetch "/b.cairn"] := by
    decide +kernel
  have plain : PlainCalls (recordedLoad ⟨5, 9⟩ (.memory importFromAbove) "/d/a.cairn" ()).2.host.2 := by
    intro resolution member
    rw [calls] at member
    simp only [List.mem_cons, reduceCtorEq, Call.resolve.injEq, List.not_mem_nil, or_false,
      false_or] at member
    subst member
    exact ⟨by decide +kernel, by decide +kernel⟩
  obtain ⟨sameResult, sameStore⟩ :=
    load_files_eq ⟨5, 9⟩ "/tmp" "/srv" portable (by decide +kernel) (.inl plain)
  exact ⟨by decide +kernel, sameResult, congrArg Store.documents sameStore,
    congrArg Store.imports sameStore⟩

end Load

end ConfigGraph
