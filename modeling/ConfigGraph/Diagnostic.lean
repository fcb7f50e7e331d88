import ConfigGraph.Log

/-!
# Diagnostics

What an editor shows for the errors and the notices of a load, by path.  A `Publication` lists paths
in the order in which they came up.
-/

namespace ConfigGraph

/-- How grave a diagnostic is. -/
inductive Severity where
  | error | warning
  deriving DecidableEq

def Severity.number : Severity → Nat
  | error => 1
  | warning => 2

/-- A message at a place in a document. -/
structure Diagnostic where
  message : Text
  range : Range
  severity : Severity
  deriving DecidableEq

namespace Diagnostic

/-- The name under which diagnostics are shown. -/
def source : Text := "cairn"

def ofNotice (notice : Notice) : Diagnostic := ⟨notice.message, notice.range, .warning⟩

/-- An error as a diagnostic.  Its place is shown by the range, so that the message is without it. -/
def ofError (error : LoadError) : Diagnostic := ⟨error.core, error.range.getD .origin, .error⟩

end Diagnostic

/-- Diagnostics by path. -/
abbrev Publication := List (Text × List Diagnostic)

namespace Publication

def get (publication : Publication) (path : Text) : List Diagnostic :=
  ((publication.find? fun entry => entry.1 == path).map (·.2)).getD []

/-- Whether a path is listed, with or without diagnostics. -/
def mentions (publication : Publication) (path : Text) : Bool :=
  publication.any fun entry => entry.1 == path

/-- Adds a diagnostic behind those of a path. -/
def push (publication : Publication) (path : Text) (diagnostic : Diagnostic) : Publication :=
  match publication with
  | [] => [(path, [diagnostic])]
  | entry :: entries =>
      if entry.1 = path then (path, entry.2 ++ [diagnostic]) :: entries
      else entry :: push entries path diagnostic

/-- Lists a path that is not listed yet, without diagnostics. -/
def mention (publication : Publication) (path : Text) : Publication :=
  if publication.mentions path then publication else publication ++ [(path, [])]

/-- The paths that have diagnostics. -/
def reportedPaths (publication : Publication) : List Text :=
  (publication.filter fun entry => !entry.2.isEmpty).map (·.1)

def ofNotices (notices : List Notice) : Publication :=
  notices.foldl (fun publication notice => push publication notice.path (.ofNotice notice)) []

end Publication

end ConfigGraph
