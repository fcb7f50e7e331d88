import ConfigGraph.LanguageServer
import ConfigGraph.Proofs.LanguageServer.Publication

/-!
# What an editor shows

An editor keeps the list that was published last for each path.  In a history of validations and
changes of files, a list with diagnostics that is shown for a path is always from the last validation of
a document: the next one of the same document publishes a list for each path on which this one has
reported something (`visible_of_latest`).
-/

namespace ConfigGraph

open Publication

namespace LanguageServer

/-! ## One validation -/

theorem reportedBy_remember (server : LanguageServer) (uri other : Text) (links : List ImportLink)
    (reported : List Text) :
    (server.remember uri links reported).reportedBy other =
      if other = uri then reported else server.reportedBy other := by
  dsimp only [reportedBy, remember]
  rw [Keys.find?_cons_filter]
  split_ifs <;> rfl

theorem linksOf_remember (server : LanguageServer) (uri other : Text) (links : List ImportLink)
    (reported : List Text) :
    (server.remember uri links reported).linksOf other =
      if other = uri then links else server.linksOf other := by
  dsimp only [linksOf, remember]
  rw [Keys.find?_cons_filter]
  split_ifs <;> rfl

/-- A load gives a report. -/
theorem report_diagnose {limits : Load.Limits} {disk : Disk} {path text : Text}
    {report : Publication} {links : List ImportLink}
    (diagnosed : diagnose limits disk path text = .ok (report, links)) : report.Report := by
  unfold diagnose at diagnosed
  dsimp only at diagnosed
  split at diagnosed
  case h_1 =>
    cases diagnosed
    exact report_ofNotices _
  case h_2 =>
    cases diagnosed
    exact (report_ofNotices _).push _ _
  case h_3 => cases diagnosed

theorem exists_diagnosed {limits : Load.Limits} {disk : Disk} {server after : LanguageServer}
    {uri text : Text} {publication : Publication}
    (validated : server.validate limits disk uri text = .ok (publication, after)) :
    ∃ path report links, Path.ofUri disk.directory uri = .ok path ∧
      diagnose limits disk path text = .ok (report, links) ∧
      publication = (server.reportedBy uri).foldl Publication.mention (report.mention path) ∧
      after = server.remember uri links publication.reportedPaths := by
  unfold validate at validated
  split at validated
  case h_1 => cases validated
  case h_2 path isPath =>
    split at validated
    case h_1 => cases validated
    case h_2 report links diagnosed =>
      cases validated
      exact ⟨path, report, links, isPath, diagnosed, rfl, rfl⟩

/-- What a validation publishes: the list of a path is empty unless the load reports something
there, and the paths that are listed without diagnostics are that of the document and those that the
validation before has reported. -/
theorem of_validate_eq_ok {limits : Load.Limits} {disk : Disk} {server after : LanguageServer}
    {uri text : Text} {publication : Publication}
    (validated : server.validate limits disk uri text = .ok (publication, after)) :
    publication.Distinct ∧
      (∀ path, publication.mentions path = true ↔ publication.get path ≠ [] ∨
        Path.ofUri disk.directory uri = .ok path ∨ path ∈ server.reportedBy uri) ∧
      ∀ other, after.reportedBy other =
        if other = uri then publication.reportedPaths else server.reportedBy other := by
  obtain ⟨path, report, links, isPath, diagnosed, rfl, rfl⟩ := exists_diagnosed validated
  have isReport := report_diagnose diagnosed
  refine ⟨(isReport.distinct.mention path).foldl_mention _, fun other => ?_, fun other =>
    reportedBy_remember server uri other links _⟩
  rw [mentions_foldl_mention, mentions_mention, get_foldl_mention, get_mention,
    isReport.get_ne_nil_iff, or_assoc]
  refine or_congr_right (or_congr_left ?_)
  rw [isPath]
  constructor
  · rintro rfl
    rfl
  · rintro ⟨⟩
    rfl

end LanguageServer

/-! ## Histories -/

/-- A validation that is complete: all that it publishes has come to the editor. -/
structure Validation where
  uri : Text
  publication : Publication

namespace Validation

/-- The last validation of a document. -/
def latest? (completed : List Validation) (uri : Text) : Option Validation :=
  completed.find? fun validation => validation.uri == uri

theorem latest?_cons_self (validation : Validation) (earlier : List Validation) :
    latest? (validation :: earlier) validation.uri = some validation := by
  simp [latest?]

theorem latest?_cons_of_ne {validation : Validation} {uri : Text} (differs : validation.uri ≠ uri)
    (earlier : List Validation) : latest? (validation :: earlier) uri = latest? earlier uri := by
  rw [latest?, List.find?_cons, beq_eq_false_iff_ne.mpr differs]
  rfl

/-- All lists that have been published, the last one first. -/
def published (completed : List Validation) : List (Validation × Text × List Diagnostic) :=
  completed.flatMap fun validation => validation.publication.reverse.map (validation, ·)

/-- The list that was published last for some paths, with its validation and its path. -/
def last? (concerns : Text → Bool) (completed : List Validation) :
    Option (Validation × Text × List Diagnostic) :=
  (published completed).find? fun entry => concerns entry.2.1

/-- The list that was published last for some paths, if there is one. -/
def visible (concerns : Text → Bool) (completed : List Validation) : List Diagnostic :=
  ((last? concerns completed).map (·.2.2)).getD []

end Validation

/-- An editor with its files and its server, and the validations that were completed, the last one
first. -/
structure Editor where
  disk : Disk
  server : LanguageServer
  completed : List Validation

namespace Editor

/-- An editor without validations. -/
def start (disk : Disk) : Editor := ⟨disk, .start, []⟩

/-- What can happen: a change of the files, or the validation of a document that is opened, changed or
saved. -/
inductive Step where
  | write (path : Text) (file : File)
  | remove (path : Text)
  | validate (uri text : Text)

/-- What comes of a step.  Nothing if it is a validation that is not completed. -/
def step? (limits : Load.Limits) (editor : Editor) : Step → Option Editor
  | .write path file => some { editor with disk := editor.disk.write path file }
  | .remove path => some { editor with disk := editor.disk.remove path }
  | .validate uri text =>
      match editor.server.validate limits editor.disk uri text with
      | .error _ => none
      | .ok (publication, server) =>
          match LanguageServer.withUris publication with
          | .error _ => none
          | .ok _ => some ⟨editor.disk, server, ⟨uri, publication⟩ :: editor.completed⟩

/-- What comes of a history. -/
def run? (limits : Load.Limits) : List Step → Editor → Option Editor
  | [], editor => some editor
  | step :: steps, editor => (editor.step? limits step).bind (run? limits steps)

/-- The list that is shown for a path. -/
def view (editor : Editor) (path : Text) : List Diagnostic :=
  Validation.visible (· == path) editor.completed

/-- The list that is shown at a URI, to which several paths may lead. -/
def shown (editor : Editor) (address : Text) : List Diagnostic :=
  Validation.visible (fun path => (Path.toUri path).toOption == some address) editor.completed

end Editor

/-! ## Each validation follows the last one of its document -/

/-- What a validation has to do with those before: a path on which it has nothing to report is listed
just if it is that of its own document, or has diagnostics from the validation of the document before. -/
structure Validation.Follows (directory : Text) (earlier : List Validation)
    (validation : Validation) : Prop where
  distinct : validation.publication.Distinct
  mentions_iff : ∀ path, validation.publication.mentions path = true ↔
    validation.publication.get path ≠ [] ∨ Path.ofUri directory validation.uri = .ok path ∨
      ∃ previous, latest? earlier validation.uri = some previous ∧
        previous.publication.get path ≠ []

/-- Each validation follows those before it. -/
inductive Chained (directory : Text) : List Validation → Prop where
  | nil : Chained directory []
  | cons {validation : Validation} {earlier : List Validation} :
      Chained directory earlier → validation.Follows directory earlier →
      Chained directory (validation :: earlier)

/-- What holds of an editor at all times: its validations follow each other, and the server remembers
what the last validation of each document has reported. -/
structure Editor.Consistent (editor : Editor) : Prop where
  chained : Chained editor.disk.directory editor.completed
  reported : ∀ uri path, path ∈ editor.server.reportedBy uri ↔
    ∃ previous, Validation.latest? editor.completed uri = some previous ∧
      previous.publication.get path ≠ []

namespace Editor

theorem consistent_start (disk : Disk) : (start disk).Consistent where
  chained := .nil
  reported uri path := by simp [start, LanguageServer.start, LanguageServer.reportedBy,
    Validation.latest?]

theorem Consistent.step {limits : Load.Limits} {editor after : Editor}
    (consistent : editor.Consistent) {step : Step}
    (stepped : editor.step? limits step = some after) : after.Consistent := by
  cases step with
  | write path file =>
      cases stepped
      exact ⟨consistent.chained, consistent.reported⟩
  | remove path =>
      cases stepped
      exact ⟨consistent.chained, consistent.reported⟩
  | validate uri text =>
      unfold step? at stepped
      dsimp only at stepped
      split at stepped
      case h_1 => cases stepped
      case h_2 publication server validated =>
        split at stepped
        case h_1 => cases stepped
        case h_2 =>
          cases stepped
          obtain ⟨distinct, mentions, reported⟩ := LanguageServer.of_validate_eq_ok validated
          refine ⟨.cons consistent.chained ⟨distinct, fun path => ?_⟩, fun other path => ?_⟩
          · rw [mentions path, consistent.reported uri path]
          · rw [reported other]
            by_cases same : uri = other
            · subst same
              rw [if_pos rfl, mem_reportedPaths distinct, Validation.latest?_cons_self ⟨uri, _⟩]
              simp
            · rw [if_neg fun equal => same equal.symm, consistent.reported other path,
                Validation.latest?_cons_of_ne same]

theorem Consistent.run {limits : Load.Limits} {steps : List Step} {editor after : Editor}
    (consistent : editor.Consistent) (ran : run? limits steps editor = some after) :
    after.Consistent := by
  induction steps generalizing editor with
  | nil =>
      cases ran
      exact consistent
  | cons step steps induction =>
      obtain ⟨middle, stepped, ran⟩ := Option.bind_eq_some_iff.mp ran
      exact induction (consistent.step stepped) ran

end Editor

/-! ## What is shown -/

namespace Validation

variable {directory : Text} {completed : List Validation} {concerns : Text → Bool}

theorem last?_cons (validation : Validation) (earlier : List Validation) :
    last? concerns (validation :: earlier) =
      ((validation.publication.reverse.find? fun entry => concerns entry.1).map
        (validation, ·)).or (last? concerns earlier) := by
  rw [last?, published, List.flatMap_cons, List.find?_append, List.find?_map]
  rfl

theorem of_find?_reverse (concerns : Text → Bool) {validation : Validation}
    {entry : Text × List Diagnostic}
    (found : (validation.publication.reverse.find? fun entry => concerns entry.1) = some entry) :
    entry ∈ validation.publication ∧ concerns entry.1 = true :=
  ⟨List.mem_reverse.mp (List.mem_of_find?_eq_some found), by simpa using List.find?_some found⟩

/-- A list with diagnostics that was published last comes from the last validation of its document. -/
theorem latest_of_last (chained : Chained directory completed) {source : Validation} {path : Text}
    {diagnostics : List Diagnostic}
    (isLast : last? concerns completed = some (source, path, diagnostics))
    (nonempty : diagnostics ≠ []) :
    latest? completed source.uri = some source ∧ source.publication.get path = diagnostics ∧
      concerns path = true := by
  induction chained with
  | nil => cases isLast
  | @cons validation earlier _ follows induction =>
      rw [last?_cons] at isLast
      cases found : validation.publication.reverse.find? fun entry => concerns entry.1 with
      | some entry =>
          rw [found] at isLast
          cases isLast
          obtain ⟨member, isConcerned⟩ := of_find?_reverse concerns found
          exact ⟨latest?_cons_self _ _, follows.distinct.get_of_mem member, isConcerned⟩
      | none =>
          rw [found] at isLast
          obtain ⟨isLatest, given, isConcerned⟩ := induction isLast
          refine ⟨?_, given, isConcerned⟩
          have otherDocument : validation.uri ≠ source.uri := by
            intro same
            -- The validation of the same document would have listed the path again.
            have listed : validation.publication.mentions path = true :=
              (follows.mentions_iff path).mpr
                (.inr (.inr ⟨source, same ▸ isLatest, given.symm ▸ nonempty⟩))
            obtain ⟨entry, member, isPath⟩ := List.mem_map.mp (mentions_iff.mp listed)
            exact List.find?_eq_none.mp found entry (List.mem_reverse.mpr member)
              (isPath.symm ▸ isConcerned)
          rwa [latest?_cons_of_ne otherDocument]

theorem last_of_visible (nonempty : visible concerns completed ≠ []) : ∃ source path,
    last? concerns completed = some (source, path, visible concerns completed) := by
  unfold visible at nonempty ⊢
  cases found : last? concerns completed with
  | none =>
      rw [found] at nonempty
      exact absurd rfl nonempty
  | some entry => exact ⟨entry.1, entry.2.1, rfl⟩

end Validation

/-- Nothing stale is shown.

After every history of changes of files and of validations that are completed, a list with diagnostics
that is shown for a path is from the last validation of some document, and is what that validation has
reported on the path.  So it is for a URI, which shows what was reported on one of the paths that it
stands for. -/
theorem Editor.visible_of_latest {limits : Load.Limits} {disk : Disk} {steps : List Step}
    {editor : Editor} (ran : run? limits steps (start disk) = some editor) :
    (∀ path, editor.view path ≠ [] → ∃ validation,
      Validation.latest? editor.completed validation.uri = some validation ∧
      validation.publication.get path = editor.view path ∧
      Validation.last? (· == path) editor.completed = some (validation, path, editor.view path)) ∧
    ∀ address, editor.shown address ≠ [] → ∃ validation path,
      Validation.latest? editor.completed validation.uri = some validation ∧
      Path.toUri path = .ok address ∧
      validation.publication.get path = editor.shown address := by
  have chained := ((consistent_start disk).run ran).chained
  constructor
  · intro path nonempty
    obtain ⟨source, own, isLast⟩ := Validation.last_of_visible nonempty
    obtain ⟨isLatest, given, isPath⟩ := Validation.latest_of_last chained isLast nonempty
    obtain rfl : own = path := beq_iff_eq.mp isPath
    exact ⟨source, isLatest, given, isLast⟩
  · intro address nonempty
    obtain ⟨source, path, isLast⟩ := Validation.last_of_visible nonempty
    obtain ⟨isLatest, given, isAddress⟩ := Validation.latest_of_last chained isLast nonempty
    refine ⟨source, path, isLatest, ?_, given⟩
    rw [beq_iff_eq] at isAddress
    cases converted : Path.toUri path with
    | ok uri =>
        rw [converted] at isAddress
        rw [Option.some.inj isAddress]
    | error fault =>
        rw [converted] at isAddress
        cases isAddress

/-- A history that is performed, with the last validation of a document, and what is checked of both. -/
theorem Editor.exists_of_any {limits : Load.Limits} {steps : List Step} {before : Editor} {uri : Text}
    {good : Editor → Validation → Bool}
    (ends : ((run? limits steps before).any fun editor =>
      (Validation.latest? editor.completed uri).any (good editor)) = true) :
    ∃ editor validation, run? limits steps before = some editor ∧
      Validation.latest? editor.completed uri = some validation ∧
      good editor validation = true := by
  obtain ⟨editor, ran, ends⟩ := (Option.any_eq_true _ _).mp ends
  obtain ⟨validation, isLatest, checked⟩ := (Option.any_eq_true _ _).mp ends
  exact ⟨editor, validation, ran, isLatest, checked⟩

/-- A disk with a file that holds no document. -/
def brokenImport : Disk where
  files := [("/work/s.cairn", .bytes ("\x7b a = \x7d".toList.map fun character =>
    UInt8.ofNat character.toNat))]
  directory := "/work"

theorem Editor.visible_of_latest_broken :
    ∃ editor, run? ⟨10, 10⟩ [.validate "file:///work/a.cairn" "import \"s.cairn\"",
        .validate "file:///work/b.cairn" "1"] (start brokenImport) = some editor ∧
      editor.view "/work/s.cairn" ≠ [] ∧ ∃ validation,
        Validation.latest? editor.completed validation.uri = some validation ∧
        validation.publication.get "/work/s.cairn" = editor.view "/work/s.cairn" := by
  obtain ⟨editor, _, ran, _, shows⟩ := @exists_of_any ⟨10, 10⟩
    [.validate "file:///work/a.cairn" "import \"s.cairn\"", .validate "file:///work/b.cairn" "1"]
    (start brokenImport) "file:///work/a.cairn"
    (fun editor _ => decide (editor.view "/work/s.cairn" ≠ [])) (by decide +kernel)
  have nonempty := of_decide_eq_true shows
  obtain ⟨validation, isLatest, given, _⟩ := (visible_of_latest ran).1 _ nonempty
  exact ⟨editor, ran, nonempty, validation, isLatest, given⟩

end ConfigGraph
