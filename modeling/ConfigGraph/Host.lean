import ConfigGraph.Log
import ConfigGraph.Path

/-!
# Hosts

A host knows where documents are: it resolves the imports of a document to paths, and fetches the
text of a path.  A load asks a host for these two things only, one after another.  A host may have a
state, may refuse with an error of a load, or may fail in a way of its own.  It also takes notices
that are no failures.

`Host.recorded` notes every call, which shows what a load asks for.
-/

namespace ConfigGraph

/-- A request to resolve an import. -/
structure Resolution where
  written : Text
  range : Range
  /-- The document that it stands in. -/
  base : Option Text
  deriving DecidableEq

/-- The directory from which an import is seen: that of its document, or a root if there is none. -/
def Resolution.directory (resolution : Resolution) (root : Text) : Text :=
  match resolution.base with
  | none | some [] => root
  | some base => Path.parent base

/-- What a host answers. -/
inductive Reply where
  | answer (text : Text)
  /-- An error of a load, with or without a location. -/
  | refused (error : LoadError)
  /-- A failure of the host's own, described by a text. -/
  | broken (reason : Text)

/-- What comes of a call: its reply, the state of the host behind it, and what it adds to the log. -/
structure Outcome (σ α : Type) where
  reply : α
  state : σ
  log : List LogEntry

/-- A host whose states are of a type. -/
structure Host (σ : Type) where
  /-- Maps an import to the path of a document. -/
  resolve : Resolution → σ → Outcome σ Reply
  /-- Gives the text of a document. -/
  fetch : Text → σ → Outcome σ Reply
  /-- Takes a notice.  A host that has no use for it logs it as information. -/
  report : Notice → σ → Outcome σ Unit := fun notice state => ⟨(), state, [.information notice]⟩

/-- A call of a host. -/
inductive Call where
  | resolve (resolution : Resolution)
  | fetch (path : Text)
  | report (notice : Notice)
  deriving DecidableEq

namespace Call

/-- The resolution that a call asks for. -/
def resolution? : Call → Option Resolution
  | resolve resolution => some resolution
  | _ => none

/-- The path whose text a call asks for. -/
def fetched? : Call → Option Text
  | fetch path => some path
  | _ => none

/-- The notice that a call hands over. -/
def notice? : Call → Option Notice
  | report notice => some notice
  | _ => none

end Call

namespace Host

/-- The error of an import that leads to no document. -/
def notFound (written : Text) : LoadError :=
  .ofTexts .resolution .importNotFound [("import_path", written)] none none

/-- What comes of a call that is noted. -/
def note {σ α : Type} (call : Call) (calls : List Call) (outcome : Outcome σ α) :
    Outcome (σ × List Call) α :=
  ⟨outcome.reply, (outcome.state, calls ++ [call]), outcome.log⟩

/-- A host that also lists its calls, in order. -/
def recorded {σ : Type} (host : Host σ) : Host (σ × List Call) where
  resolve resolution state := note (.resolve resolution) state.2 (host.resolve resolution state.1)
  fetch path state := note (.fetch path) state.2 (host.fetch path state.1)
  report notice state := note (.report notice) state.2 (host.report notice state.1)

end Host

end ConfigGraph
