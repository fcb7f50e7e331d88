import ConfigGraph.Proofs.Load.Trace

/-!
# Failures of a host

A host may refuse a request with an error of a load, or fail in a way of its own.  The first reply of
this kind ends a crawl.  It comes out as one error of a load, which says where the request was made
unless the host knew better, and what the host had answered before stays stored.
-/

namespace ConfigGraph

/-- What stands in front of the message of an error.  An empty path counts as none. -/
def LoadError.heading (path : Option Text) (range : Option Range) : Text :=
  match path with
  | none | some [] => []
  | some path =>
      match range with
      | none => "Error in '" ++ path ++ "': "
      | some range =>
          "Error in '" ++ path ++ "' (Line: " ++ Text.ofNat range.start.line ++ ", Character: " ++
            Text.ofNat range.start.character ++ "):\n"

theorem LoadError.message_eq_heading (error : LoadError) :
    error.message = heading error.path error.range ++ error.core := by
  obtain ⟨kind, code, path, range, details⟩ := error
  cases path with
  | none => rfl
  | some path =>
      cases path with
      | nil => rfl
      | cons code path => cases range <;> rfl

namespace Load

/-! ## What becomes of a reply -/

/-- The error as which a reply to a request comes out of a load. -/
inductive Surfaces : Call → Reply → LoadError → Prop where
  /-- An error that has a path stays as it is. -/
  | located {call : Call} {error : LoadError} :
      error.path ≠ none →
      Surfaces call (.refused error) error
  | unlocated {call : Call} {error : LoadError} {path : Text} {range : Option Range} :
      error.path = none →
      place? call = some (path, range) →
      Surfaces call (.refused error) ⟨error.kind, error.code, some path, range, error.details⟩
  /-- A failure that is no error of a load becomes one, at the import or at the path. -/
  | unresolved {resolution : Resolution} {owner reason : Text} :
      resolution.base = some owner →
      Surfaces (.resolve resolution) (.broken reason)
        { kind := .resolution
          code := .cannotResolveImport
          path := some owner
          range := some resolution.range
          details := [("import_path", .text resolution.written), ("reason", .text reason)] }
  | unfetched {path reason : Text} :
      Surfaces (.fetch path) (.broken reason)
        { kind := .fetch
          code := .cannotFetchText
          path := some path
          range := none
          details := [("resolved_path", .text path), ("reason", .text reason)] }

theorem surfaces_locate {call : Call} {path : Text} {range : Option Range}
    (isPlace : place? call = some (path, range)) (error : LoadError) :
    Surfaces call (.refused error) (error.locate path range) := by
  obtain ⟨kind, code, given, givenRange, details⟩ := error
  cases given with
  | none => exact .unlocated rfl isPlace
  | some given => exact .located nofun

/-- However an error of the host comes out, what it says is the same. -/
theorem Surfaces.message_eq {call : Call} {refusal error : LoadError}
    (surfaces : Surfaces call (.refused refusal) error) :
    error.message = LoadError.heading error.path error.range ++ refusal.core := by
  cases surfaces with
  | located _ => exact refusal.message_eq_heading
  | unlocated _ _ => exact LoadError.message_eq_heading _

/-- A crawl whose last reply is no answer halts with this reply. -/
theorem Halts.surfaces {settlements : List Settlement} {exchange : Exchange} {failure : Failure}
    (halts : Halts settlements [exchange] failure)
    (unanswered : ∀ text, exchange.reply ≠ .answer text) :
    ∃ error, failure = .error error ∧ Surfaces exchange.call exchange.reply error := by
  cases halts.haltsBy with
  | unread _ => exact absurd rfl (unanswered _)
  | refused isPlace => exact ⟨_, rfl, surfaces_locate isPlace _⟩
  | unfetched => exact ⟨_, rfl, .unfetched⟩
  | unresolved isBase => exact ⟨_, rfl, .unresolved isBase⟩

/-! ## What is stored -/

/-- The source that comes of a request for a text. -/
def fetchedSource? : Exchange → Option Source
  | ⟨.fetch path, .answer text⟩ => some ⟨path, text⟩
  | _ => none

/-- The import that comes of a request to resolve one, with the path to which it leads. -/
def resolved? : Exchange → Option (Resolution × Text)
  | ⟨.resolve resolution, .answer target⟩ => some (resolution, target)
  | _ => none

/-- An entry of the import table is that of an import of a document, which was resolved. -/
def IsEntry (documents : List Document) (entry : ImportKey × Text)
    (resolved : Resolution × Text) : Prop :=
  ∃ document ∈ documents, ∃ site ∈ document.content.imports,
    entry.1 = ⟨document.path, some site.span⟩ ∧
      resolved = (document.resolution site, entry.2)

/-- A store holds what came of requests that were answered, and nothing else. -/
structure Stored (exchanges : List Exchange) (store : Store) : Prop where
  answered : ∀ exchange ∈ exchanges, ∃ text, exchange.reply = .answer text
  /-- Each text that came is that of a document, in order. -/
  sources : store.documents.map Document.source = exchanges.filterMap fetchedSource?
  format : ∀ document ∈ store.documents, document.format = .ofPath document.path
  parsed : ∀ document ∈ store.documents,
    parseDocument document.source document.format = .ok document.content
  numbers : ∀ (index : Nat) (document : Document), store.documents[index]? = some document →
    document.number = index
  distinct : (store.documents.map Document.path).Nodup
  /-- Each import that was resolved is that of an entry, in order. -/
  imports : List.Forall₂ (IsEntry store.documents) store.imports (exchanges.filterMap resolved?)

variable {σ : Type} {settlements : List Settlement} {tail : List Exchange}
  {state : LoadState (σ × List Exchange)}

theorem answered_of_mem {exchange : Exchange}
    (member : exchange ∈ settlements.flatMap Settlement.exchanges) :
    ∃ text, exchange.reply = .answer text := by
  obtain ⟨settlement, _, isExchange⟩ := List.mem_flatMap.mp member
  rcases Settlement.mem_exchanges.mp isExchange with rfl | ⟨_, _, target, _, _, rfl⟩
  · exact ⟨_, rfl⟩
  · exact ⟨target, rfl⟩

/-- The imports of one document that are resolved, beside the entries for them. -/
theorem forall₂_isEntry_zipWith {documents : List Document} {document : Document}
    (member : document ∈ documents) {sites : List Expr.ImportSite}
    (isImport : ∀ site ∈ sites, site ∈ document.content.imports) (targets : List Text) :
    List.Forall₂ (IsEntry documents)
      (List.zipWith (fun site target => (Settlement.key document site, target)) sites targets)
      ((List.zipWith (Settlement.exchange document) sites targets).filterMap resolved?) := by
  induction sites generalizing targets with
  | nil => exact .nil
  | cons site sites induction =>
      cases targets with
      | nil => exact .nil
      | cons target targets =>
          obtain ⟨isFirst, others⟩ := List.forall_mem_cons.mp isImport
          exact .cons ⟨document, member, site, isFirst, rfl, rfl⟩ (induction others targets)

theorem forall₂_isEntry_exchanges {documents : List Document}
    (members : ∀ settlement ∈ settlements, settlement.document ∈ documents) :
    List.Forall₂ (IsEntry documents) (settlements.flatMap Settlement.entries)
      ((settlements.flatMap Settlement.exchanges).filterMap resolved?) := by
  induction settlements with
  | nil => exact .nil
  | cons settlement settlements induction =>
      obtain ⟨member, others⟩ := List.forall_mem_cons.mp members
      rw [List.flatMap_cons, List.flatMap_cons, List.filterMap_append]
      exact List.rel_append (forall₂_isEntry_zipWith member (fun _ => id) _) (induction others)

/-- A request with which a crawl halts is about an import of a document that is stored, if it is to
resolve one. -/
theorem Halts.site_of_resolve {exchange : Exchange} {failure : Failure}
    (halts : Halts settlements [exchange] failure)
    (settled : Settled [] settlements [exchange] state) {resolution : Resolution}
    (isResolve : exchange.call = .resolve resolution) :
    ∃ document ∈ state.store.documents, ∃ site ∈ document.content.imports,
      resolution = document.resolution site := by
  cases halts with
  | unread _ _ _ => cases isResolve
  | @inside others last _ _ _ inside =>
      cases inside with
      | @unresolved site _ _ next _ _ =>
          cases isResolve
          refine ⟨last.document, ?_, site, List.mem_of_getElem? next, rfl⟩
          rw [settled.documents]
          exact List.mem_map_of_mem (List.mem_append_right _ List.mem_cons_self)

/-- What is settled is stored. -/
theorem Settled.stored (settled : Settled [] settlements tail state) :
    Stored (settlements.flatMap Settlement.exchanges) state.store := by
  have sound : ∀ document ∈ state.store.documents, document.format = .ofPath document.path ∧
      parseDocument document.source document.format = .ok document.content := by
    intro document member
    rw [settled.documents] at member
    obtain ⟨settlement, isSettlement, rfl⟩ := List.mem_map.mp member
    exact ⟨(settled.sound settlement isSettlement).format,
      (settled.sound settlement isSettlement).content⟩
  constructor
  · exact fun exchange member => answered_of_mem member
  · rw [settled.documents, List.map_map]
    exact (filterMap_exchanges fetchedSource? Document.source (fun _ => rfl) (fun _ _ _ => rfl)
      settlements).symm
  · exact fun document member => (sound document member).1
  · exact fun document member => (sound document member).2
  · exact settled.numbers
  · rw [settled.documents, List.map_map]
    exact settled.distinct
  · rw [settled.imports, settled.documents]
    exact forall₂_isEntry_exchanges fun settlement member => List.mem_map_of_mem member

/-! ## A crawl -/

/-- An exchange that is not answered is the last one. -/
theorem split_of_unanswered {earlier later answered : List Exchange} {exchange : Exchange}
    (same : earlier ++ exchange :: later = answered ++ tail)
    (answers : ∀ other ∈ answered, ∃ text, other.reply = .answer text)
    (unanswered : ∀ text, exchange.reply ≠ .answer text) (atMostOne : tail.length ≤ 1) :
    earlier = answered ∧ tail = [exchange] ∧ later = [] := by
  rcases List.append_eq_append_iff.mp same with ⟨more, rfl, split⟩ | ⟨more, rfl, rfl⟩
  · cases more with
    | nil =>
        rw [List.nil_append] at split
        rw [← split, List.length_cons] at atMostOne
        have nothing : later = [] := List.length_eq_zero_iff.mp (by omega)
        exact ⟨by simp, by rw [← split, nothing], nothing⟩
    | cons first more =>
        obtain ⟨rfl, _⟩ := List.cons.inj split
        obtain ⟨text, answered⟩ := answers exchange (by simp)
        exact absurd answered (unanswered text)
  · rw [List.length_append, List.length_cons] at atMostOne
    have nothing : more = [] := List.length_eq_zero_iff.mp (by omega)
    have nothingLater : later = [] := List.length_eq_zero_iff.mp (by omega)
    subst nothing nothingLater
    exact ⟨by simp, rfl, rfl⟩

theorem Halts.length_tail_le {failure : Failure} (halts : Halts settlements tail failure) :
    tail.length ≤ 1 := by
  cases halts.haltsBy <;> simp

/-- The first reply of a host that is no answer ends a crawl.

No request comes behind it, and it comes out as one error of a load.  If that was raised as such, its
message says the same as before behind the place.  A request to resolve is about an import of a
document that is stored.  What is stored is what came of the requests before. -/
theorem crawl_host_failure (host : Host σ) (bound : Nat) (entry : Text) (initial : σ)
    {earlier later : List Exchange} {exchange : Exchange}
    (asked : transcript bound host entry (.start initial) = earlier ++ exchange :: later)
    (unanswered : ∀ text, exchange.reply ≠ .answer text) :
    later = [] ∧
    ∃ error after,
      perform (crawl bound host entry) (.start initial) = (.error (.error error), after) ∧
      Surfaces exchange.call exchange.reply error ∧
      (∀ refusal, exchange.reply = .refused refusal →
        error.message = LoadError.heading error.path error.range ++ refusal.core) ∧
      (∀ resolution, exchange.call = .resolve resolution →
        ∃ document ∈ after.store.documents, ∃ site ∈ document.content.imports,
          resolution = document.resolution site) ∧
      Stored earlier after.store := by
  rw [perform_crawl]
  obtain ⟨settlements, tail, result, after, isAfter, isTranscript, settled, ending⟩ :=
    transcribed_settled host bound entry initial
  rw [isTranscript] at asked
  rcases ending with ⟨rfl, rfl⟩ | ⟨failure, rfl, halts⟩
  · obtain ⟨_, same, _⟩ := split_of_unanswered asked.symm (fun _ => answered_of_mem) unanswered
      (Nat.zero_le 1)
    cases same
  · obtain ⟨rfl, rfl, rfl⟩ := split_of_unanswered asked.symm (fun _ => answered_of_mem) unanswered
      halts.length_tail_le
    obtain ⟨error, rfl, surfaces⟩ := halts.surfaces unanswered
    refine ⟨rfl, error, after.mapHost Prod.fst, by rw [isAfter], surfaces, ?_, ?_, settled.stored⟩
    · intro refusal isRefusal
      rw [isRefusal] at surfaces
      exact surfaces.message_eq
    · exact fun resolution isResolve => halts.site_of_resolve settled isResolve

/-- A host with one text at every path, which resolves nothing. -/
def unresolving : Host Unit where
  resolve resolution state := ⟨.refused (Host.notFound resolution.written), state, []⟩
  fetch _ state := ⟨.answer "import \"b\"", state, []⟩

/-- A host that cannot be reached. -/
def unreachable : Host Unit where
  resolve _ state := ⟨.broken "no route", state, []⟩
  fetch _ state := ⟨.broken "no route", state, []⟩

/-- An import that is refused, and a text that cannot be had. -/
theorem crawl_host_failure_unresolving :
    (∃ error after,
      perform (crawl 2 unresolving "/a") (.start ()) = (.error (.error error), after) ∧
      Surfaces (.resolve ⟨"b", ⟨⟨0, 0⟩, ⟨0, 10⟩⟩, some "/a"⟩) (.refused (Host.notFound "b"))
        error ∧
      Stored [⟨.fetch "/a", .answer "import \"b\""⟩] after.store) ∧
    ∃ error after,
      perform (crawl 2 unreachable "/a") (.start ()) = (.error (.error error), after) ∧
      Surfaces (.fetch "/a") (.broken "no route") error ∧ Stored [] after.store := by
  constructor
  · have calls : (transcript 2 unresolving "/a" (.start ())).map Exchange.call =
        [.fetch "/a", .resolve ⟨"b", ⟨⟨0, 0⟩, ⟨0, 10⟩⟩, some "/a"⟩] := by
      decide +kernel
    obtain ⟨⟨_, fetched⟩, _, asked, rfl, isRest⟩ := List.map_eq_cons_iff.mp calls
    obtain ⟨⟨_, resolved⟩, _, rfl, rfl, isNothing⟩ := List.map_eq_cons_iff.mp isRest
    obtain rfl := List.map_eq_nil_iff.mp isNothing
    have answers : ∀ exchange ∈ transcript 2 unresolving "/a" (.start ()),
        unresolving.Answers exchange := fun _ => answers_of_mem_transcript
    rw [asked] at answers
    rw [← List.singleton_append] at asked
    obtain ⟨_, isText⟩ := answers _ List.mem_cons_self
    obtain ⟨_, isRefusal⟩ := answers _ (List.mem_cons_of_mem _ List.mem_cons_self)
    obtain rfl : Reply.answer "import \"b\"" = fetched := isText
    obtain rfl : Reply.refused (Host.notFound "b") = resolved := isRefusal
    obtain ⟨_, error, after, performed, surfaces, _, _, stored⟩ :=
      crawl_host_failure unresolving 2 "/a" () asked nofun
    exact ⟨error, after, performed, surfaces, stored⟩
  · have calls : (transcript 2 unreachable "/a" (.start ())).map Exchange.call = [.fetch "/a"] := by
      decide +kernel
    obtain ⟨⟨_, reply⟩, _, asked, rfl, isNothing⟩ := List.map_eq_cons_iff.mp calls
    obtain rfl := List.map_eq_nil_iff.mp isNothing
    have answers : ∀ exchange ∈ transcript 2 unreachable "/a" (.start ()),
        unreachable.Answers exchange := fun _ => answers_of_mem_transcript
    rw [asked] at answers
    rw [← List.nil_append [_]] at asked
    obtain ⟨_, isBroken⟩ := answers _ List.mem_cons_self
    obtain rfl : Reply.broken "no route" = reply := isBroken
    obtain ⟨_, error, after, performed, surfaces, _, _, stored⟩ :=
      crawl_host_failure unreachable 2 "/a" () asked nofun
    exact ⟨error, after, performed, surfaces, stored⟩

end Load

end ConfigGraph
