import ConfigGraph.Proofs.LanguageServer.History
import ConfigGraph.Proofs.LanguageServer.Imports
import ConfigGraph.Proofs.Uri.File

/-!
# Links of documents

The links of a document are those of its last validation that was completed, with the files as they
were then.  Neither a validation of another document nor one that fails changes them.
-/

namespace ConfigGraph

/-! ## Files with names -/

/-- A disk whose files can be named: paths are seen from an absolute directory, and those of files
can be written as bytes. -/
structure Disk.Nameable (disk : Disk) : Prop where
  rooted : Path.isAbsolute disk.directory = true
  encoded : ∀ path, disk.contains path = true → ∃ bytes, Text.encodeEscaped path = .ok bytes

theorem Disk.Nameable.exists_toUri {disk : Disk} (nameable : disk.Nameable) {path text target : Text}
    {site : Expr.ImportSite} (leads : disk.fileOf? path text site = some target) :
    ∃ uri, Path.toUri target = .ok uri := by
  obtain ⟨leadsTo, contained⟩ := target_of_fileOf? leads
  obtain ⟨bytes, encoded⟩ := nameable.encoded target contained
  have isNormal := Host.isNormal_of_target nameable.rooted leadsTo
  exact ⟨_, Path.toUri_of_encodeEscaped isNormal encoded⟩

namespace LanguageServer

open Load (Limits)

theorem exists_withUris {α : Type} {entries : List (Text × α)}
    (named : ∀ entry ∈ entries, ∃ uri, Path.toUri entry.1 = .ok uri) :
    ∃ listed, withUris entries = .ok listed ∧
      List.Forall₂ (fun entry given => Path.toUri entry.1 = .ok given.1 ∧ given.2 = entry.2) entries
        listed := by
  induction entries with
  | nil => exact ⟨[], rfl, .nil⟩
  | cons entry entries induction =>
      obtain ⟨⟨uri, written⟩, others⟩ := List.forall_mem_cons.mp named
      obtain ⟨listed, isListed, same⟩ := induction others
      refine ⟨(uri, entry.2) :: listed, ?_, .cons ⟨written, rfl⟩ same⟩
      have appended := withUris_append_cons written [] entries entry.2
      rw [List.nil_append, isListed] at appended
      exact appended

/-! ## Histories -/

/-- A validation that was completed: the files at its time, its URI, and the text of the document. -/
structure Checked where
  disk : Disk
  uri : Text
  text : Text

/-- The last completed validation of a document. -/
def Checked.latest? (completed : List Checked) (uri : Text) : Option Checked :=
  completed.find? fun checked => checked.uri == uri

theorem Checked.latest?_cons_self (checked : Checked) (earlier : List Checked) :
    latest? (checked :: earlier) checked.uri = some checked := by
  simp [latest?]

theorem Checked.latest?_cons_of_ne {checked : Checked} {uri : Text} (differs : checked.uri ≠ uri)
    (earlier : List Checked) : latest? (checked :: earlier) uri = latest? earlier uri := by
  simp [latest?, differs]

/-- Files and a server, and the validations that were completed, the last one first. -/
structure Session where
  disk : Disk
  server : LanguageServer
  completed : List Checked

namespace Session

/-- A session without validations. -/
def start (disk : Disk) : Session := ⟨disk, .start, []⟩

/-- What comes of a step.  A validation that fails changes nothing. -/
def step (limits : Limits) (session : Session) : Editor.Step → Session
  | .write path file => { session with disk := session.disk.write path file }
  | .remove path => { session with disk := session.disk.remove path }
  | .validate uri text =>
      match session.server.validate limits session.disk uri text with
      | .error _ => session
      | .ok (_, server) => ⟨session.disk, server, ⟨session.disk, uri, text⟩ :: session.completed⟩

/-- What comes of a history. -/
def run (limits : Limits) (steps : List Editor.Step) (session : Session) : Session :=
  steps.foldl (step limits) session

/-- What holds of a session at all times: the server knows the imports of each document from its
last validation, and nothing of other documents. -/
structure Consistent (limits : Limits) (session : Session) : Prop where
  known : ∀ uri checked, Checked.latest? session.completed uri = some checked → ∃ path,
    Path.ofUri checked.disk.directory uri = .ok path ∧
      Knows limits checked.disk path checked.text (session.server.linksOf uri)
  unknown : ∀ uri, Checked.latest? session.completed uri = none → session.server.linksOf uri = []

theorem consistent_start (limits : Limits) (disk : Disk) : (start disk).Consistent limits :=
  ⟨nofun, fun _ _ => rfl⟩

theorem Consistent.step {limits : Limits} {session : Session} (consistent : session.Consistent limits)
    (next : Editor.Step) : (session.step limits next).Consistent limits := by
  cases next with
  | write path file => exact ⟨consistent.known, consistent.unknown⟩
  | remove path => exact ⟨consistent.known, consistent.unknown⟩
  | validate uri text =>
      unfold Session.step
      dsimp only
      split
      case h_1 => exact consistent
      case h_2 publication server validated =>
        obtain ⟨path, report, links, isPath, diagnosed, _, rfl⟩ := exists_diagnosed validated
        constructor
        · intro other checked isLatest
          rw [linksOf_remember]
          by_cases same : uri = other
          · subst same
            rw [Checked.latest?_cons_self ⟨session.disk, uri, text⟩] at isLatest
            cases isLatest
            rw [if_pos rfl]
            exact ⟨path, isPath, knows_of_diagnose diagnosed⟩
          · rw [Checked.latest?_cons_of_ne same] at isLatest
            rw [if_neg (Ne.symm same)]
            exact consistent.known other checked isLatest
        · intro other notChecked
          by_cases same : uri = other
          · subst same
            rw [Checked.latest?_cons_self ⟨session.disk, uri, text⟩] at notChecked
            cases notChecked
          · rw [Checked.latest?_cons_of_ne same] at notChecked
            rw [linksOf_remember, if_neg (Ne.symm same)]
            exact consistent.unknown other notChecked

theorem Consistent.run {limits : Limits} {session : Session} (consistent : session.Consistent limits)
    (steps : List Editor.Step) : (session.run limits steps).Consistent limits := by
  induction steps generalizing session with
  | nil => exact consistent
  | cons next steps induction => exact induction (consistent.step next)

end Session

/-! ## Links that are shown -/

/-- What is shown as the links of a document which has been validated. -/
structure Shows (limits : Limits) (checked : Checked) (path : Text)
    (shown : Except Fault (List (Text × Range))) : Prop where
  /-- One link for each import up to the first that is not resolved, with its range.  There are no
  others. -/
  links : shown = withUris ((checked.disk.linkedImports path checked.text).map fun found =>
    (found.2, found.1.span.rangeIn checked.text))
  /-- They come in source order. -/
  ordered : SitesIn checked.text ((checked.disk.linkedImports path checked.text).map (·.1))
  /-- If the load fails anywhere but at an import of the document, no import is left out. -/
  all : ∀ content, parseDocument ⟨path, checked.text⟩ (.ofPath path) = .ok content →
    (∀ error, loaded limits checked.disk path checked.text = .error (.error error) →
      ¬ImportError path error) →
    (checked.disk.linkedImports path checked.text).map (·.1) = content.imports
  unparsed : ∀ failure, parseDocument ⟨path, checked.text⟩ (.ofPath path) = .error failure →
    shown = .ok []
  /-- Each leads to the URI of the file to which the import is resolved. -/
  named : checked.disk.Nameable → ∃ links, shown = .ok links ∧
    List.Forall₂ (fun found link => Path.toUri found.2 = .ok link.1 ∧
      link.2 = found.1.span.rangeIn checked.text) (checked.disk.linkedImports path checked.text) links

/-- A document without completed validations has no links. -/
theorem documentLinks_of_unchecked {limits : Limits} {steps : List Editor.Step} {disk : Disk}
    {uri : Text}
    (unchecked : Checked.latest? ((Session.start disk).run limits steps).completed uri = none) :
    ((Session.start disk).run limits steps).server.documentLinks uri = .ok [] := by
  have consistent := (Session.consistent_start limits disk).run steps
  rw [documentLinks, consistent.unknown uri unchecked]
  rfl

/-- The links of a document, after every history of changes of files and of validations.

They are those of the last validation of the document that was completed, whatever has become of
others since: one for each of its imports up to the first that was not resolved, in source order, with
its range and the URI of its file. -/
theorem documentLinks_of_latest {limits : Limits} {steps : List Editor.Step} {disk : Disk}
    {uri : Text} {checked : Checked}
    (isLatest : Checked.latest? ((Session.start disk).run limits steps).completed uri =
      some checked) :
    ∃ path, Path.ofUri checked.disk.directory uri = .ok path ∧
      Shows limits checked path
        (((Session.start disk).run limits steps).server.documentLinks uri) := by
  have consistent := (Session.consistent_start limits disk).run steps
  obtain ⟨path, isPath, links, all⟩ := consistent.known uri checked isLatest
  refine ⟨path, isPath, ?_⟩
  have shown : ((Session.start disk).run limits steps).server.documentLinks uri =
      withUris ((checked.disk.linkedImports path checked.text).map fun found =>
        (found.2, found.1.span.rangeIn checked.text)) := by
    rw [documentLinks, links]
  rw [shown]
  refine ⟨rfl, checked.disk.sitesIn_linkedImports path checked.text, all, ?_, ?_⟩
  · intro failure failed
    rw [Disk.linkedImports, failed]
    rfl
  · intro nameable
    have named : ∀ entry ∈ (checked.disk.linkedImports path checked.text).map fun found =>
        (found.2, found.1.span.rangeIn checked.text), ∃ uri, Path.toUri entry.1 = .ok uri := by
      intro entry member
      obtain ⟨found, isFound, rfl⟩ := List.mem_map.mp member
      exact nameable.exists_toUri (Disk.fileOf?_of_mem_linkedImports isFound)
    obtain ⟨listed, isListed, same⟩ := exists_withUris named
    exact ⟨listed, isListed, List.forall₂_map_left_iff.mp same⟩

/-- Two documents that import each other, and a history in which the first of them has an import of no
file, and then the second one is removed and validated, too. -/
def mutualImports : Disk := .ofTexts
  [("/work/a.cairn", "import \"b.cairn\""), ("/work/b.cairn", "import \"a.cairn\"")] "/work"

def mutualSteps : List Editor.Step :=
  [.validate "file:///work/a.cairn" "[import \"b.cairn\", import \"c.cairn\", import \"a.cairn\"]",
    .remove "/work/b.cairn", .validate "file:///work/b.cairn" "[import \"a.cairn\"]",
    .validate "file:[" "1"]

theorem documentLinks_of_latest_mutual : ∃ checked path,
    Checked.latest? ((Session.start mutualImports).run ⟨9, 9⟩ mutualSteps).completed
      "file:///work/a.cairn" = some checked ∧
    Shows ⟨9, 9⟩ checked path
      (((Session.start mutualImports).run ⟨9, 9⟩ mutualSteps).server.documentLinks
        "file:///work/a.cairn") ∧
    (((Session.start mutualImports).run ⟨9, 9⟩ mutualSteps).server.documentLinks
      "file:///work/a.cairn").toOption =
        some [(("file:///work/b.cairn" : Text), ⟨⟨0, 1⟩, ⟨0, 17⟩⟩)] := by
  have isChecked : (Checked.latest? ((Session.start mutualImports).run ⟨9, 9⟩ mutualSteps).completed
      "file:///work/a.cairn").isSome = true := by decide +kernel
  obtain ⟨checked, isLatest⟩ := Option.isSome_iff_exists.mp isChecked
  obtain ⟨path, _, shows⟩ := documentLinks_of_latest isLatest
  exact ⟨checked, path, isLatest, shows, by decide +kernel⟩

end LanguageServer

end ConfigGraph
