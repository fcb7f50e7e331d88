import ConfigGraph.Document

/-!
# Documents of a load

The documents that a load has read, in the order in which they came, and the paths to which their
imports have been resolved.
-/

namespace ConfigGraph

structure Document where
  source : Source
  format : DocumentFormat
  content : Content
  /-- The number of documents before it. -/
  number : Nat

def Document.path (document : Document) : Text := document.source.path

/-- An import: the path of its document, and where it stands there. -/
structure ImportKey where
  owner : Text
  span : Option Span
  deriving DecidableEq

/-- The documents of a load and their imports. -/
structure Store where
  /-- The documents, in the order in which they came. -/
  documents : List Document
  /-- The paths of imports, in the order in which the imports came. -/
  imports : List (ImportKey × Text)

namespace Store

def empty : Store := ⟨[], []⟩

def find? (store : Store) (path : Text) : Option Document :=
  store.documents.find? fun document => document.path = path

def contains (store : Store) (path : Text) : Bool :=
  store.documents.any fun document => document.path == path

def size (store : Store) : Nat := store.documents.length

/-- Adds a document.  A path is added once only. -/
def add (store : Store) (source : Source) (format : DocumentFormat) (content : Content) :
    Except InternalFault (Document × Store) :=
  if store.contains source.path then .error (.duplicateDocument source.path)
  else
    let document : Document := ⟨source, format, content, store.size⟩
    .ok (document, { store with documents := store.documents ++ [document] })

/-- Sets the path of an import: in its old place if the import is there, at the end otherwise. -/
def putImport (key : ImportKey) (target : Text) :
    List (ImportKey × Text) → List (ImportKey × Text)
  | [] => [(key, target)]
  | entry :: entries =>
      if entry.1 = key then (key, target) :: entries else entry :: putImport key target entries

/-- Notes the path to which an import has been resolved. -/
def recordImport (store : Store) (key : ImportKey) (target : Text) : Store :=
  { store with imports := putImport key target store.imports }

def target? (store : Store) (key : ImportKey) : Option Text :=
  (store.imports.find? fun entry => entry.1 = key).map (·.2)

/-- The path of an import that must have been resolved. -/
def target (store : Store) (key : ImportKey) : Except InternalFault Text :=
  match store.target? key with
  | some target => .ok target
  | none => .error (.unresolvedImport key.owner key.span)

end Store

end ConfigGraph
