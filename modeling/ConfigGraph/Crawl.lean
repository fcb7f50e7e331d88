import ConfigGraph.Host
import ConfigGraph.Store

/-!
# Reading all documents that an entry leads to

A crawl starts at the path of its entry and fetches, reads and stores a document at a time.  The
imports of each are resolved in order, and paths that are not stored yet are to be visited later, the
latest first.  The first failure ends the crawl; what was stored before stays stored.

The graph of a host may be endless, so a crawl takes a bound on the number of paths it visits.
-/

namespace ConfigGraph

/-- The state of a load: its host, what it has stored, and its log. -/
structure LoadState (σ : Type) where
  host : σ
  store : Store
  log : List LogEntry

namespace LoadState

/-- The state before a load. -/
def start {σ : Type} (host : σ) : LoadState σ := ⟨host, .empty, []⟩

end LoadState

/-- A part of a load.  A failure keeps the state in which it happened. -/
abbrev Load (σ : Type) := ExceptT Failure (StateM (LoadState σ))

namespace Load

variable {σ : Type}

/-- The result of a part of a load that starts in a state, and the state behind it. -/
def perform {α : Type} (part : Load σ α) (state : LoadState σ) :
    Except Failure α × LoadState σ := part state

/-- Adds an entry to the log. -/
def report (entry : LogEntry) : Load σ Unit :=
  modify fun state => { state with log := state.log ++ [entry] }

def ask (request : σ → Outcome σ Reply) : Load σ Reply := do
  let state ← get
  let outcome := request state.host
  set { state with host := outcome.state, log := state.log ++ outcome.log }
  return outcome.reply

def fail {α : Type} (error : LoadError) : Load σ α := throw (.error error)

def liftInternal {α : Type} : Except InternalFault α → Load σ α
  | .ok value => return value
  | .error fault => throw (.fault (.internal fault))

/-- The error of a host that fails to fetch a document in a way of its own. -/
def fetchError (path reason : Text) : LoadError :=
  .ofTexts .fetch .cannotFetchText [("resolved_path", path), ("reason", reason)] (some path) none

/-- The error of a host that fails to resolve an import in a way of its own. -/
def resolutionError (owner : Text) (range : Range) (written reason : Text) : LoadError :=
  .ofTexts .resolution .cannotResolveImport [("import_path", written), ("reason", reason)]
    (some owner) (some range)

/-- The error of an import that no encoded text can spell. -/
def encodingError (owner : Text) (range : Range) (written : Text) : LoadError :=
  .ofTexts .encoding .importPathNotUtf8 [("import_path", written)] (some owner) (some range)

/-- Fetches the text of a path. -/
def fetchText (host : Host σ) (path : Text) : Load σ Text := do
  match ← ask (host.fetch path) with
  | .answer text => return text
  | .refused error => fail (error.locate path none)
  | .broken reason => fail (fetchError path reason)

/-- Fetches, reads and stores a document. -/
def readDocument (host : Host σ) (path : Text) : Load σ Document := do
  let format := DocumentFormat.ofPath path
  report (.fetching path format)
  let source : Source := ⟨path, ← fetchText host path⟩
  let content ← liftExcept (parseDocument source format)
  let state ← get
  let (document, store) ← liftInternal (state.store.add source format content)
  set { state with store }
  return document

/-- Asks the host for the path of an import. -/
def resolvePath (host : Host σ) (owner : Text) (range : Range) (written : Text) : Load σ Text := do
  match ← ask (host.resolve ⟨written, range, some owner⟩) with
  | .answer target => return target
  | .refused error => fail (error.locate owner (some range))
  | .broken reason => fail (resolutionError owner range written reason)

/-- Resolves an import at a range of a document, and notes its path. -/
def resolveImport (host : Host σ) (owner : Text) (range : Range) (site : Expr.ImportSite) :
    Load σ Text := do
  if !site.path.isEncodable then fail (encodingError owner range site.path)
  let target ← resolvePath host owner range site.path
  modify fun state => { state with store := state.store.recordImport ⟨owner, some site.span⟩ target }
  report (.imported owner site.path target)
  return target

/-- Resolves imports of a document that come behind a cursor.  The result is the paths that were not
stored when they were met. -/
def resolveImports (host : Host σ) (owner : Text) (cursor : Cursor) :
    List Expr.ImportSite → Load σ (List Text)
  | [] => return []
  | site :: sites => do
      match cursor.range? (some site.span) with
      | (.error misstep, _) => throw (.fault (.misstep misstep))
      | (.ok range, next) =>
          let target ← resolveImport host owner range site
          let known := (← get).store.contains target
          let others ← resolveImports host owner next sites
          return if known then others else target :: others

/-- Visits a path: reads its document, unless it is stored, and resolves the imports.  The result is
the paths to be visited because of them. -/
def visit (host : Host σ) (path : Text) : Load σ (List Text) := do
  if (← get).store.contains path then return []
  let document ← readDocument host path
  resolveImports host path (.ofText document.source.text) document.content.imports

/-- Visits the first of the paths that are left, and those that come up, which go before the others,
the last import first. -/
def visitAll (host : Host σ) : Nat → List Text → Load σ Unit
  | _, [] => return
  | 0, _ :: _ => throw (.fault .unending)
  | bound + 1, path :: paths => do
      let discovered ← visit host path
      visitAll host bound (discovered.reverse ++ paths)

/-- Reads all documents that can be reached from an entry.  The first argument bounds the number of
visits. -/
def crawl (bound : Nat) (host : Host σ) (entry : Text) : Load σ Unit := do
  visitAll host bound [entry]
  report (.crawled entry (← get).store.size)

end Load

end ConfigGraph
