import ConfigGraph.Host.FileSystem
import ConfigGraph.Proofs.Host.Memory
import ConfigGraph.Proofs.Path.Place
import ConfigGraph.Proofs.Text.Utf8

/-!
# What files reply

The host of files gives the texts of documents back that were written into files.  Where an import is
no URI, it leads to the same path as with the host of documents in memory.
-/

namespace ConfigGraph

/-! ## The files of documents -/

/-- A disk with one file for each document. -/
def Disk.ofTexts (documents : List (Text × Text)) (directory : Text) : Disk :=
  ⟨documents.map fun document => (document.1, .bytes (document.2.flatMap Text.encodeCodePoint)),
    directory⟩

theorem Disk.find?_ofTexts (documents : List (Text × Text)) (directory path : Text) :
    (ofTexts documents directory).find? path =
      (textAt? documents path).map fun text => .bytes (text.flatMap Text.encodeCodePoint) := by
  rw [find?, ofTexts, textAt?, List.find?_map, Option.map_map, Option.map_map]
  rfl

theorem Disk.contains_ofTexts (documents : List (Text × Text)) (directory path : Text) :
    (ofTexts documents directory).contains path = (textAt? documents path).isSome := by
  rw [contains, find?_ofTexts, Option.isSome_map]

/-- Documents with absolute paths whose texts come back from files. -/
structure Portable (documents : List (Text × Text)) : Prop where
  absolute : ∀ document ∈ documents, Path.isAbsolute document.1 = true
  encodable : ∀ document ∈ documents, document.2.isEncodable = true
  unmarked : ∀ document ∈ documents, document.2.head? ≠ some Text.byteOrderMark

/-- An import that is no URI. -/
def IsPlain (written : Text) : Prop :=
  written.startsWith "file:" = false ∧ Uri.hasScheme written = false

namespace Host

variable {documents : List (Text × Text)} {directory root : Text}

/-! ## Replies -/

/-- What a host that knows the documents at some paths replies to an import that leads to a path. -/
def replyAt (known : Text → Bool) (written path : Text) : Reply :=
  if known path then .answer path else .refused (notFound written)

theorem replyAt_eq_answer_iff {known : Text → Bool} {written path other : Text} :
    replyAt known written path = .answer other ↔ path = other ∧ known path = true := by
  unfold replyAt
  split_ifs with isKnown <;> simp [isKnown]

theorem target_fileSystem {disk : Disk} {resolution : Resolution}
    (isPlain : IsPlain resolution.written) {owner : Text} (isBase : resolution.base = some owner)
    (absolute : Path.isAbsolute owner = true) :
    target disk root resolution = .ok resolution.target := by
  obtain ⟨written, range, base⟩ := resolution
  obtain rfl : base = some owner := isBase
  obtain ⟨notFile, noScheme⟩ := isPlain
  have joined := Path.isAbsolute_join (Path.isAbsolute_parent absolute) written
  obtain ⟨rest, rfl⟩ := Path.eq_cons_of_isAbsolute absolute
  simp only [target, notFile, noScheme, Bool.false_eq_true, if_false]
  exact congrArg Except.ok (Path.absolute_of_isAbsolute disk.directory joined)

/-- An absolute path is no URI. -/
theorem isPlain_of_isAbsolute {path : Text} (absolute : Path.isAbsolute path = true) :
    IsPlain path := by
  obtain ⟨rest, rfl⟩ := Path.eq_cons_of_isAbsolute absolute
  exact ⟨rfl, rfl⟩

/-- A path in normal form leads to itself, wherever it stands. -/
theorem target_of_isNormal {disk : Disk} {resolution : Resolution}
    (isNormal : Path.IsNormal resolution.written) :
    target disk root resolution = .ok resolution.written := by
  obtain ⟨notFile, noScheme⟩ := isPlain_of_isAbsolute isNormal.absolute
  have joined : Path.join (resolution.directory root) resolution.written = resolution.written :=
    if_pos isNormal.absolute
  simp only [target, notFile, noScheme, Bool.false_eq_true, if_false, joined]
  exact congrArg Except.ok (Path.absolute_of_isNormal disk.directory isNormal)

/-- Imports lead to paths in normal form. -/
theorem isNormal_of_target {disk : Disk} (rooted : Path.isAbsolute disk.directory = true)
    {resolution : Resolution} {path : Text} (leads : target disk root resolution = .ok path) :
    Path.IsNormal path := by
  have isNormal (written : Text) : Path.IsNormal (Path.absolute disk.directory written) :=
    Path.isNormal_normalize (Path.isAbsolute_join rooted written)
  unfold target at leads
  split_ifs at leads
  · split at leads
    case h_1 other isRead =>
      cases leads
      unfold Path.ofUri at isRead
      cases parsed : Uri.parse resolution.written with
      | error fault =>
          rw [parsed] at isRead
          cases isRead
      | ok parts =>
          rw [parsed] at isRead
          cases isRead
          exact isNormal _
    case h_2 => cases leads
  · cases leads
    exact isNormal _

theorem fetch_fileSystem (portable : Portable documents) {path text : Text}
    (found : textAt? documents path = some text) (findings : Findings) :
    ((fileSystem (.ofTexts documents directory) root).fetch path findings).reply =
      .answer text := by
  have member := mem_of_textAt? found
  have decoded := Text.decodeMarked?_encode (portable.encodable _ member)
    (portable.unmarked _ member)
  simp only [fileSystem, readFile, Disk.find?_ofTexts, found, Option.map_some, decoded]

theorem not_answer_of_target {disk : Disk} {resolution : Resolution} {path : Text} :
    target disk root resolution ≠ .error (.answer path) := by
  intro failed
  unfold target at failed
  split_ifs at failed
  · split at failed <;> cases failed
  · cases failed

theorem reply_resolveFile {disk : Disk} {resolution : Resolution} {path : Text}
    (leads : target disk root resolution = .ok path) (findings : Findings) :
    (resolveFile disk root resolution findings).reply =
      replyAt disk.contains resolution.written path := by
  rw [resolveFile, leads, replyAt]
  dsimp only
  split_ifs <;> rfl

/-- An import is resolved if it leads to the path of a file. -/
theorem resolveFile_eq_answer_iff {disk : Disk} {resolution : Resolution} {findings : Findings}
    {path : Text} :
    (resolveFile disk root resolution findings).reply = .answer path ↔
      target disk root resolution = .ok path ∧ disk.contains path = true := by
  cases leads : target disk root resolution with
  | error reply =>
      rw [resolveFile, leads]
      refine ⟨fun same => ?_, fun ⟨same, _⟩ => nomatch same⟩
      obtain rfl : reply = .answer path := same
      exact absurd leads not_answer_of_target
  | ok other =>
      rw [reply_resolveFile leads, replyAt_eq_answer_iff, Except.ok.injEq]
      refine and_congr_right fun same => ?_
      rw [same]

theorem Answers.contains_fileSystem {resolution : Resolution} {path : Text}
    (answers : (fileSystem (.ofTexts documents directory) root).Answers
      ⟨.resolve resolution, .answer path⟩) : (textAt? documents path).isSome = true := by
  obtain ⟨findings, isReply⟩ := answers
  rw [← Disk.contains_ofTexts documents directory]
  exact (resolveFile_eq_answer_iff.mp isReply).2

end Host

end ConfigGraph
