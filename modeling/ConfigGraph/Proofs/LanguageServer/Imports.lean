import ConfigGraph.LanguageServer
import ConfigGraph.Proofs.Host.FileSystem
import ConfigGraph.Proofs.Load.Entry
import ConfigGraph.Proofs.Load.Replay
import ConfigGraph.Proofs.Load.Taxonomy

/-!
# Imports of an open document

A validation loads a document together with all that it leads to, and keeps the links of the document
alone.  They are those of its imports up to the first that leads to no file, whatever becomes of the
other documents (`knows_of_diagnose`).
-/

namespace ConfigGraph

open Load

/-! ## Imports that lead to files -/

/-- The imports before the first that leads to no file, with the paths of their files. -/
def followed (fileOf? : Expr.ImportSite → Option Text) :
    List Expr.ImportSite → List (Expr.ImportSite × Text)
  | [] => []
  | site :: sites =>
      match fileOf? site with
      | some target => (site, target) :: followed fileOf? sites
      | none => []

theorem followed_eq_zip {fileOf? : Expr.ImportSite → Option Text} {sites : List Expr.ImportSite}
    {targets : List Text} (atMost : targets.length ≤ sites.length)
    (leads : ∀ (index : Nat) (site : Expr.ImportSite) (target : Text), sites[index]? = some site →
      targets[index]? = some target → fileOf? site = some target)
    (stops : ∀ site, sites[targets.length]? = some site → fileOf? site = none) :
    followed fileOf? sites = sites.zip targets := by
  induction sites generalizing targets with
  | nil => rfl
  | cons site sites induction =>
      cases targets with
      | nil => rw [followed, stops site rfl, List.zip_nil_right]
      | cons target targets =>
          have later := @induction targets (Nat.le_of_succ_le_succ atMost)
            (fun index => leads (index + 1)) stops
          rw [followed, leads 0 site target rfl rfl, later, List.zip_cons_cons]

theorem isPrefix_followed (fileOf? : Expr.ImportSite → Option Text) (sites : List Expr.ImportSite) :
    (followed fileOf? sites).map (·.1) <+: sites := by
  induction sites with
  | nil => exact List.nil_prefix
  | cons site sites induction =>
      rw [followed]
      split
      · exact (List.prefix_cons_inj site).mpr induction
      · exact List.nil_prefix

theorem fileOf?_of_mem_followed {fileOf? : Expr.ImportSite → Option Text}
    {sites : List Expr.ImportSite} {found : Expr.ImportSite × Text}
    (member : found ∈ followed fileOf? sites) : fileOf? found.1 = some found.2 := by
  induction sites with
  | nil => cases member
  | cons site sites induction =>
      rw [followed] at member
      split at member
      case h_1 target isFile =>
        rcases List.mem_cons.mp member with rfl | later
        · exact isFile
        · exact induction later
      case h_2 => cases member

def Reply.answer? : Reply → Option Text
  | .answer text => some text
  | _ => none

namespace Disk

/-- What comes of an import of a document, which is resolved to the path of a file or not at all. -/
def resolve (disk : Disk) (path text : Text) (site : Expr.ImportSite) (findings : Findings) :
    Outcome Findings Reply :=
  (Host.fileSystem disk (disk.locate (Path.parent path))).resolve
    ⟨site.path, site.span.rangeIn text, some path⟩ findings

/-- The path to which an import of a document is resolved, if it can be encoded and resolved. -/
def fileOf? (disk : Disk) (path text : Text) (site : Expr.ImportSite) : Option Text :=
  if site.path.isEncodable then (disk.resolve path text site .empty).reply.answer? else none

theorem target_of_fileOf? {disk : Disk} {path text target : Text} {site : Expr.ImportSite}
    (found : disk.fileOf? path text site = some target) :
    Host.target disk (disk.locate (Path.parent path))
        ⟨site.path, site.span.rangeIn text, some path⟩ = .ok target ∧
      disk.contains target = true := by
  unfold fileOf? at found
  split_ifs at found with encodable
  have resolved : (disk.resolve path text site .empty).reply = .answer target := by
    revert found
    cases (disk.resolve path text site .empty).reply with
    | answer other => exact fun found => congrArg Reply.answer (Option.some.inj found)
    | refused error => exact nofun
    | broken reason => exact nofun
  exact Host.resolveFile_eq_answer_iff.mp resolved

/-- The imports of a document up to the first that cannot be encoded or resolved, with the paths to
which they are resolved.  A text that does not parse has no imports. -/
def linkedImports (disk : Disk) (path text : Text) : List (Expr.ImportSite × Text) :=
  match parseDocument ⟨path, text⟩ (.ofPath path) with
  | .ok content => followed (disk.fileOf? path text) content.imports
  | .error _ => []

theorem fileOf?_of_mem_linkedImports {disk : Disk} {path text : Text}
    {found : Expr.ImportSite × Text} (member : found ∈ disk.linkedImports path text) :
    disk.fileOf? path text found.1 = some found.2 := by
  unfold linkedImports at member
  split at member
  · exact fileOf?_of_mem_followed member
  · cases member

theorem sitesIn_linkedImports (disk : Disk) (path text : Text) :
    SitesIn text ((disk.linkedImports path text).map (·.1)) := by
  unfold linkedImports
  split
  case h_1 content parsed =>
    have first := (isPrefix_followed (disk.fileOf? path text) content.imports).sublist
    have sitesIn := sitesIn_of_parseDocument parsed
    exact ⟨fun site member => sitesIn.inside site (first.subset member),
      sitesIn.ordered.sublist first⟩
  case h_2 => exact ⟨List.forall_mem_nil _, .nil⟩

end Disk

/-! ## Loads of a server -/

namespace LanguageServer

variable {limits : Limits} {disk : Disk} {path text : Text}

/-- The host of a validation: the files, but for the document that is open. -/
def host (disk : Disk) (path text : Text) : Host Findings :=
  .editor [(path, text)] disk (disk.locate (Path.parent path))

/-- What the load of a validation asks its host for, with the replies. -/
def exchanges (limits : Limits) (disk : Disk) (path text : Text) : List Exchange :=
  transcript limits.visits (host disk path text) path (.start .empty)

/-- What the load of a validation comes to. -/
def loaded (limits : Limits) (disk : Disk) (path text : Text) : Except Failure Json :=
  ((load limits (host disk path text) path).perform (.start .empty)).1

/-- What comes of an import does not depend on what the host remembers.  Its link is added there. -/
theorem exists_resolveFile_eq (disk : Disk) (root : Text) (resolution : Resolution) :
    ∃ reply log, ∀ findings, Host.resolveFile disk root resolution findings =
      ⟨reply, { findings with
        links := findings.links ++ (Exchange.link? ⟨.resolve resolution, reply⟩).toList }, log⟩ := by
  unfold Host.resolveFile
  cases leads : Host.target disk root resolution with
  | error reply =>
      refine ⟨reply, [], fun findings => ?_⟩
      cases reply with
      | answer path => exact absurd leads Host.not_answer_of_target
      | refused error => simp [Exchange.link?]
      | broken reason => simp [Exchange.link?]
  | ok path =>
      dsimp only
      split_ifs with contained
      · exact ⟨.answer path, [.found resolution.written resolution.base path], fun _ => rfl⟩
      · refine ⟨.refused (Host.notFound resolution.written), [], fun findings => ?_⟩
        simp [Exchange.link?]

/-- A host of an editor remembers the links that its transcript tells. -/
theorem editor_follows (overlays : List (Text × Text)) (disk : Disk) (root : Text) :
    Host.Follows (fun state => ⟨state.2.filterMap Exchange.link?, []⟩)
      (Host.editor overlays disk root).transcribed (Host.editor overlays disk root) := by
  constructor
  · rintro resolution ⟨findings, exchanges⟩
    obtain ⟨reply, log, outcome⟩ := exists_resolveFile_eq disk root resolution
    simp only [Host.transcribed, Host.transcribe, Outcome.mapState, Host.editor, outcome,
      List.filterMap_append, List.filterMap_cons, List.filterMap_nil]
    cases Exchange.link? ⟨.resolve resolution, reply⟩ <;> rfl
  · rintro called ⟨findings, exchanges⟩
    simp only [Host.transcribed, Host.transcribe, Outcome.mapState, Host.editor]
    cases overlays.find? fun overlay => overlay.1 == called with
    | some overlay => simp [Exchange.link?]
    | none => simp [Exchange.link?]

theorem links_load :
    ((load limits (host disk path text) path).perform (.start .empty)).2.host.links =
      (exchanges limits disk path text).filterMap Exchange.link? := by
  have follows := editor_follows [(path, text)] disk (disk.locate (Path.parent path))
  have performed : Load.perform (load limits (host disk path text) path) (LoadState.start .empty) =
      ((transcribedLoad limits (host disk path text) path .empty).1,
        (transcribedLoad limits (host disk path text) path .empty).2.mapHost fun state =>
          ⟨state.2.filterMap Exchange.link?, []⟩) :=
    load_follows follows limits path (LoadState.start (Findings.empty, []))
  rw [performed, exchanges, ← transcript_load]
  rfl

/-- A validation that is completed remembers the links of its document, and its load is not broken
off. -/
theorem of_diagnose_eq_ok {report : Publication} {links : List ImportLink}
    (diagnosed : diagnose limits disk path text = .ok (report, links)) :
    links = linksFrom path (exchanges limits disk path text) ∧
      ∀ fault, loaded limits disk path text ≠ .error (.fault fault) := by
  rw [linksFrom, ← links_load]
  unfold diagnose at diagnosed
  dsimp only at diagnosed
  split at diagnosed
  case h_1 isOk =>
    cases diagnosed
    refine ⟨rfl, fun fault broken => ?_⟩
    cases (show loaded limits disk path text = _ from isOk).symm.trans broken
  case h_2 isError =>
    cases diagnosed
    refine ⟨rfl, fun fault broken => ?_⟩
    cases (show loaded limits disk path text = _ from isError).symm.trans broken
  case h_3 => cases diagnosed

theorem loaded_of_failed {failure : Failure}
    (failed : (transcribed limits.visits (host disk path text) path (.start .empty)).1 =
      .error failure) : loaded limits disk path text = .error failure := by
  rw [loaded, perform_load, perform_crawl, failed]
  rfl

/-! ## Replies -/

/-- The document that is open is read from the editor. -/
theorem reply_of_fetched {reply : Reply}
    (asked : ⟨.fetch path, reply⟩ ∈ exchanges limits disk path text) : reply = .answer text := by
  obtain ⟨findings, isReply⟩ := answers_of_mem_transcript asked
  rw [← show _ = reply from isReply]
  simp [host, Host.editor]

/-- An import is resolved in the same way whatever the host remembers. -/
theorem fileOf?_of_resolved {site : Expr.ImportSite} (encodable : site.path.isEncodable = true)
    {reply : Reply} (asked : ⟨.resolve ⟨site.path, site.span.rangeIn text, some path⟩, reply⟩ ∈
      exchanges limits disk path text) :
    disk.fileOf? path text site = reply.answer? := by
  obtain ⟨findings, isReply⟩ := answers_of_mem_transcript asked
  obtain ⟨only, log, outcome⟩ := exists_resolveFile_eq disk (disk.locate (Path.parent path))
    ⟨site.path, site.span.rangeIn text, some path⟩
  have resolved : (disk.resolve path text site findings).reply = reply := isReply
  rw [Disk.fileOf?, if_pos encodable, ← resolved]
  simp only [Disk.resolve, Host.fileSystem, outcome]

/-- The error of a load that comes of an import of the document at a path: it cannot be encoded or
resolved. -/
structure ImportError (path : Text) (error : LoadError) : Prop where
  path : error.path = some path
  kind : error.kind = .encoding ∨ error.kind = .resolution

/-- A host of files refuses to resolve an import without saying where it stands. -/
theorem refused_of_resolveFile {root : Text} {resolution : Resolution} {findings : Findings}
    {error : LoadError}
    (refused : (Host.resolveFile disk root resolution findings).reply = .refused error) :
    error.path = none ∧ error.kind = .resolution := by
  unfold Host.resolveFile at refused
  split at refused
  case h_1 reply failed =>
    obtain rfl : reply = .refused error := refused
    unfold Host.target at failed
    split_ifs at failed
    · split at failed <;> cases failed
    · cases failed
      exact ⟨rfl, rfl⟩
  case h_2 =>
    split_ifs at refused
    cases refused
    exact ⟨rfl, rfl⟩

/-- A crawl that halts at an import of the document fails with an error of that import. -/
theorem importError_of_haltsInside {settlement : Settlement} {tail : List Exchange}
    {failure : Failure} (isPath : settlement.path = path)
    (asked : tail ⊆ exchanges limits disk path text)
    (halts : HaltsInside settlement tail failure) :
    ∃ error, failure = .error error ∧ ImportError path error := by
  subst isPath
  cases halts with
  | unencodable _ _ => exact ⟨_, rfl, rfl, .inl rfl⟩
  | @unresolved site reply _ _ _ failed =>
      cases reply with
      | answer target => cases failed
      | refused error =>
          obtain ⟨findings, isReply⟩ := answers_of_mem_transcript (asked List.mem_cons_self)
          obtain ⟨noPath, isResolution⟩ := refused_of_resolveFile isReply
          obtain ⟨kind, code, given, range, details⟩ := error
          obtain rfl : given = none := noPath
          cases failed
          exact ⟨_, rfl, rfl, .inr isResolution⟩
      | broken reason =>
          cases failed
          exact ⟨_, rfl, rfl, .inr rfl⟩

/-! ## One validation -/

/-- The imports of the document that are resolved are those up to the first that is not. -/
theorem imports_eq_zip {settlement : Settlement} (isPath : settlement.path = path)
    (sound : settlement.Sound)
    (asked : settlement.exchanges ⊆ exchanges limits disk path text)
    (ends : settlement.Complete ∨ ∃ tail failure,
      tail ⊆ exchanges limits disk path text ∧ HaltsInside settlement tail failure) :
    settlement.document.source.text = text ∧
      parseDocument ⟨path, text⟩ (.ofPath path) = .ok settlement.document.content ∧
      disk.linkedImports path text = settlement.sites.zip settlement.targets := by
  have sameText := Reply.answer.inj (reply_of_fetched (isPath ▸ asked List.mem_cons_self))
  have parsed : parseDocument ⟨path, text⟩ (.ofPath path) = .ok settlement.document.content := by
    have content := sound.content
    rw [sound.format, isPath] at content
    rw [← content, ← isPath, ← sameText]
    rfl
  have resolution (site : Expr.ImportSite) : settlement.document.resolution site =
      ⟨site.path, site.span.rangeIn text, some path⟩ := by
    rw [Document.resolution, sameText, ← isPath]
  refine ⟨sameText, parsed, ?_⟩
  rw [Disk.linkedImports, parsed]
  refine followed_eq_zip sound.length ?_ ?_
  · intro index site target isSite isTarget
    have before := (List.getElem?_eq_some_iff.mp isTarget).1
    have taken : site ∈ settlement.sites.take settlement.targets.length := by
      rw [List.mem_iff_getElem?]
      exact ⟨index, by rw [List.getElem?_take_of_lt before, isSite]⟩
    have exchanged := asked
      (Settlement.mem_exchanges.mpr (.inr ⟨index, site, target, isSite, isTarget, rfl⟩))
    rw [Settlement.exchange, resolution] at exchanged
    exact fileOf?_of_resolved (sound.encodable site taken) exchanged
  · intro site isSite
    rcases ends with complete | ⟨tail, failure, inTranscript, halts⟩
    · rw [complete, List.getElem?_eq_none (Nat.le_refl _)] at isSite
      cases isSite
    · cases halts with
      | unencodable isLast notEncodable =>
          cases isLast.symm.trans isSite
          rw [Disk.fileOf?, notEncodable, if_neg Bool.false_ne_true]
      | @unresolved _ reply _ isLast encodable failed =>
          cases isLast.symm.trans isSite
          have exchanged := inTranscript List.mem_cons_self
          rw [resolution] at exchanged
          rw [fileOf?_of_resolved encodable exchanged]
          cases reply with
          | answer target => cases failed
          | refused error => rfl
          | broken reason => rfl

/-- What a completed validation knows of the imports of its document. -/
structure Knows (limits : Limits) (disk : Disk) (path text : Text) (links : List ImportLink) :
    Prop where
  /-- The links are those of the imports before the first that leads to no file. -/
  links : links.map (fun link => (link.target, link.range)) =
    (disk.linkedImports path text).map fun found => (found.2, found.1.span.rangeIn text)
  /-- Unless the load fails at an import of the document, there is no such import. -/
  all : ∀ content, parseDocument ⟨path, text⟩ (.ofPath path) = .ok content →
    (∀ error, loaded limits disk path text = .error (.error error) → ¬ImportError path error) →
      (disk.linkedImports path text).map (·.1) = content.imports

theorem map_links_eq (settlement : Settlement) :
    settlement.links.map (fun link => (link.target, link.range)) =
      (settlement.sites.zip settlement.targets).map fun found =>
        (found.2, found.1.span.rangeIn settlement.document.source.text) := by
  simp only [Settlement.links, List.zip, List.map_zipWith]
  rfl

theorem knows_of_diagnose {report : Publication} {links : List ImportLink}
    (diagnosed : diagnose limits disk path text = .ok (report, links)) :
    Knows limits disk path text links := by
  obtain ⟨rfl, notFault⟩ := of_diagnose_eq_ok diagnosed
  have entered := crawl_entered (host disk path text) limits.visits path .empty
  rw [← exchanges] at entered
  generalize isTranscript : exchanges limits disk path text = transcript at entered ⊢
  generalize isResult : (transcribed limits.visits (host disk path text) path (.start .empty)).1 =
    result at entered
  cases entered with
  | @read settlement _ _ isPath sound asked links ends =>
      subst isTranscript
      have imports := imports_eq_zip isPath sound asked (ends.imp_right fun
        ⟨tail, failure, inTranscript, halts, _⟩ => ⟨tail, failure, inTranscript, halts⟩)
      obtain ⟨rfl, parsed, zipped⟩ := imports
      constructor
      · rw [links, zipped, map_links_eq]
      · intro content sameParsed unfailing
        cases parsed.symm.trans sameParsed
        rcases ends with complete | ⟨tail, failure, inTranscript, halts, rfl⟩
        · rw [zipped, List.map_fst_zip (Nat.le_of_eq complete.symm)]
        · obtain ⟨error, rfl, isImportError⟩ := importError_of_haltsInside isPath inTranscript halts
          exact absurd isImportError (unfailing error (loaded_of_failed isResult))
  | @unread reply failure failed =>
      obtain rfl : reply = .answer text := reply_of_fetched (isTranscript ▸ List.mem_cons_self)
      have unparsed : parseDocument ⟨path, text⟩ (.ofPath path) = .error failure := by
        unfold readFailure? at failed
        dsimp only at failed
        split at failed
        case h_1 => cases failed
        case h_2 parsed =>
          cases failed
          exact parsed
      constructor
      · rw [Disk.linkedImports, unparsed]
        rfl
      · intro content parsed
        cases unparsed.symm.trans parsed
  | unending => exact absurd (loaded_of_failed isResult) (notFault _)

end LanguageServer

end ConfigGraph
