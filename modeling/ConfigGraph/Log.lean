import ConfigGraph.Document

/-!
# Log of a load

What a load and its hosts report while they work.  An entry knows its level, the part of the program
that it comes from, and its message; `LogEntry.line` puts them together.
-/

namespace ConfigGraph

/-- A notice about a place in a document. -/
structure Notice where
  message : Text
  path : Text
  range : Range
  deriving DecidableEq

/-- The notice with its place in front; lines and characters are counted from one. -/
def Notice.text (notice : Notice) : Text :=
  notice.path ++ ":" ++ Text.ofNat (notice.range.start.line + 1) ++ ":" ++
    Text.ofNat (notice.range.start.character + 1) ++ ": " ++ notice.message

/-- An entry of the log. -/
inductive LogEntry where
  /-- A document is about to be fetched. -/
  | fetching (path : Text) (format : DocumentFormat)
  /-- An import of a document has been resolved. -/
  | imported (owner written resolved : Text)
  /-- All documents that can be reached from an entry are there. -/
  | crawled (entry : Text) (count : Nat)
  /-- A load has a result. -/
  | loaded (entry : Text) (count : Nat)
  /-- A host has found the file of an import. -/
  | found (written : Text) (base : Option Text) (resolved : Text)
  /-- A notice that a host takes for information. -/
  | information (notice : Notice)
  /-- A notice that a host takes for a warning. -/
  | warning (notice : Notice)
  deriving DecidableEq

namespace LogEntry

def level : LogEntry → Text
  | information _ => "INFO"
  | warning _ => "WARNING"
  | _ => "DEBUG"

def source : LogEntry → Text
  | fetching .. | imported .. | crawled .. => "cairn.loader.crawler"
  | loaded .. => "cairn.loader.pipeline"
  | found .. | warning _ => "cairn.resolver.filesystem"
  | information _ => "cairn.resolver.bridge"

/-- A text between apostrophes. -/
def mark (text : Text) : Text := "'" ++ text ++ "'"

/-- The message of an entry. -/
def message : LogEntry → Text
  | fetching path format => "Fetching " ++ mark path ++ " as " ++ format.name
  | imported owner written resolved =>
      mark owner ++ " imports " ++ mark written ++ " as " ++ mark resolved
  | crawled entry count =>
      "Crawl from " ++ mark entry ++ " finished with " ++ Text.ofNat count ++ " document(s)"
  | loaded entry count => "Loaded " ++ mark entry ++ " (" ++ Text.ofNat count ++ " document(s))"
  | found written base resolved =>
      "Resolved " ++ mark written ++ " from " ++ mark (base.getD "None") ++ " to " ++ mark resolved
  | information notice | warning notice => notice.text

def line (entry : LogEntry) : Text := entry.level ++ " " ++ entry.source ++ " " ++ entry.message

end LogEntry

end ConfigGraph
