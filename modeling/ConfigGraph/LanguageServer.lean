import ConfigGraph.Diagnostic
import ConfigGraph.Host.FileSystem
import ConfigGraph.Loading

/-!
# Language server

Validates the documents of an editor: a validation loads a document with the text that the editor
has of it, and gives the diagnostics of all paths concerned.  The server remembers, by URI, which
imports the last validation has resolved and on which paths it has reported something, so that a
path with nothing left to report is cleared.
-/

namespace ConfigGraph

/-- What is remembered of validations, by URI. -/
structure LanguageServer where
  /-- The imports of the document that have been resolved. -/
  links : List (Text × List ImportLink)
  /-- The paths that have diagnostics. -/
  reported : List (Text × List Text)

namespace LanguageServer

def start : LanguageServer := ⟨[], []⟩

/-- Why a server gives no answer. -/
inductive Fault where
  /-- A URI or a path cannot be converted. -/
  | uri (fault : Uri.Fault)
  /-- The load fails with no load error. -/
  | load (fault : ConfigGraph.Fault)

def linksOf (server : LanguageServer) (uri : Text) : List ImportLink :=
  ((server.links.find? fun entry => entry.1 == uri).map (·.2)).getD []

/-- The paths that have diagnostics because of a URI. -/
def reportedBy (server : LanguageServer) (uri : Text) : List Text :=
  ((server.reported.find? fun entry => entry.1 == uri).map (·.2)).getD []

def remember (server : LanguageServer) (uri : Text) (links : List ImportLink)
    (reported : List Text) : LanguageServer where
  links := (uri, links) :: server.links.filter fun entry => entry.1 != uri
  reported := (uri, reported) :: server.reported.filter fun entry => entry.1 != uri

/-- The path to which an error belongs: its own, or that of the document that was loaded. -/
def pathOf (path : Text) (error : LoadError) : Text :=
  match error.path with
  | none | some [] => path
  | some own => own

/-- Loads the document at a path with the text of an editor.  The result is what the load reports,
and the imports of the document that it has resolved. -/
def diagnose (limits : Load.Limits) (disk : Disk) (path text : Text) :
    Except ConfigGraph.Fault (Publication × List ImportLink) :=
  let host := Host.editor [(path, text)] disk (disk.locate (Path.parent path))
  let (result, state) := (Load.load limits host path).perform (.start .empty)
  let noticed := Publication.ofNotices state.host.notices
  let links := state.host.links.filter fun link => link.source == some path
  match result with
  | .ok _ => .ok (noticed, links)
  | .error (.error error) => .ok (noticed.push (pathOf path error) (.ofError error), links)
  | .error (.fault fault) => .error fault

/-- Validates the document at a URI, which has a text in the editor.  Paths that were reported by the
last validation and have nothing to report now are listed, too. -/
def validate (limits : Load.Limits) (disk : Disk) (server : LanguageServer) (uri text : Text) :
    Except Fault (Publication × LanguageServer) :=
  match Path.ofUri disk.directory uri with
  | .error fault => .error (.uri fault)
  | .ok path =>
      match diagnose limits disk path text with
      | .error fault => .error (.load fault)
      | .ok (publication, links) =>
          let cleared := (server.reportedBy uri).foldl Publication.mention (publication.mention path)
          .ok (cleared, server.remember uri links cleared.reportedPaths)

def withUris {α : Type} (entries : List (Text × α)) : Except Fault (List (Text × α)) :=
  entries.mapM fun (path, entry) =>
    match Path.toUri path with
    | .ok uri => .ok (uri, entry)
    | .error fault => .error (.uri fault)

/-- The links of the document at a URI: the URIs to which its imports lead, and their ranges. -/
def documentLinks (server : LanguageServer) (uri : Text) : Except Fault (List (Text × Range)) :=
  withUris ((server.linksOf uri).map fun link => (link.target, link.range))

end LanguageServer

end ConfigGraph
