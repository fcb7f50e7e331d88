import ConfigGraph.Host
import ConfigGraph.Uri.File

/-!
# Documents in files

A host whose documents are files.  An import is a path, seen from the directory of the document in
which it stands, or the URI of a file.  The host remembers the imports that it has resolved, and the
notices that it has taken.
-/

namespace ConfigGraph

/-- What is at the path of a file. -/
inductive File where
  | bytes (bytes : List UInt8)
  /-- The file is there, but cannot be read. -/
  | unreadable
  deriving DecidableEq

/-- Some files, and the directory from which relative paths are seen. -/
structure Disk where
  files : List (Text × File)
  directory : Text

namespace Disk

def find? (disk : Disk) (path : Text) : Option File :=
  (disk.files.find? fun entry => entry.1 == path).map (·.2)

def contains (disk : Disk) (path : Text) : Bool := (disk.find? path).isSome

def remove (disk : Disk) (path : Text) : Disk :=
  { disk with files := disk.files.filter fun entry => entry.1 != path }

/-- The disk with a file at a path, in the place of one that was there before. -/
def write (disk : Disk) (path : Text) (file : File) : Disk :=
  { disk with files := (path, file) :: (disk.remove path).files }

/-- The absolute form of a path. -/
def locate (disk : Disk) (path : Text) : Text := Path.absolute disk.directory path

end Disk

/-- An import that has been resolved: the document in which it stands, the path to which it leads,
and its range. -/
structure ImportLink where
  source : Option Text
  target : Text
  range : Range
  deriving DecidableEq

/-- What a host of files remembers, in order. -/
structure Findings where
  links : List ImportLink
  notices : List Notice

def Findings.empty : Findings := ⟨[], []⟩

/-- Whether a text starts with a scheme of two or more characters.  A single letter may be a drive.
-/
def Uri.hasScheme (text : Text) : Bool :=
  let scheme := text.takeWhile isSchemeCode
  text.head?.any CodePoint.isAsciiLetter && 2 ≤ scheme.length &&
    (text.drop scheme.length).head? == some (':' : CodePoint)

namespace Host

/-- The error of an import that is a URI, but not one of a file. -/
def notFileUri (written : Text) : LoadError :=
  .ofTexts .resolution .invalidFileUri [("import_path", written)] none none

/-- The error of a file that is missing or cannot be read. -/
def unreadableFile (path : Text) : LoadError :=
  .ofTexts .fetch .cannotReadFile [("resolved_path", path)] (some path) none

/-- The error of a file that is not in UTF-8. -/
def undecodableFile (path : Text) : LoadError :=
  .ofTexts .fetch .fileNotUtf8 [("resolved_path", path)] (some path) none

/-- The path to which an import leads, or the reply to one that is no path and no URI of a file. -/
def target (disk : Disk) (root : Text) (resolution : Resolution) : Except Reply Text :=
  if resolution.written.startsWith "file:" then
    match Path.ofUri disk.directory resolution.written with
    | .ok path => .ok path
    | .error fault => .error (.broken fault.message)
  else if Uri.hasScheme resolution.written then
    .error (.refused (notFileUri resolution.written))
  else .ok (disk.locate (Path.join (resolution.directory root) resolution.written))

/-- Resolves an import to the path of a file. -/
def resolveFile (disk : Disk) (root : Text) (resolution : Resolution) (findings : Findings) :
    Outcome Findings Reply :=
  match target disk root resolution with
  | .error reply => ⟨reply, findings, []⟩
  | .ok path =>
      if disk.contains path then
        let link : ImportLink := ⟨resolution.base, path, resolution.range⟩
        ⟨.answer path, { findings with links := findings.links ++ [link] },
          [.found resolution.written resolution.base path]⟩
      else ⟨.refused (notFound resolution.written), findings, []⟩

/-- Reads a file.  A byte order mark at its start is no part of its text. -/
def readFile (disk : Disk) (path : Text) : Reply :=
  match disk.find? path with
  | some (.bytes bytes) =>
      match Text.decodeMarked? bytes with
      | some text => .answer text
      | none => .refused (undecodableFile path)
  | _ => .refused (unreadableFile path)

/-- The host of the files of a disk.  Imports without a document are seen from a root. -/
def fileSystem (disk : Disk) (root : Text) : Host Findings where
  resolve := resolveFile disk root
  fetch path findings := ⟨readFile disk path, findings, []⟩
  report notice findings :=
    ⟨(), { findings with notices := findings.notices ++ [notice] }, [.warning notice]⟩

/-- The host of the files of a disk some of which are open in an editor, whose texts come before
those of the files. -/
def editor (overlays : List (Text × Text)) (disk : Disk) (root : Text) : Host Findings where
  resolve := resolveFile disk root
  fetch path findings :=
    match overlays.find? fun overlay => overlay.1 == path with
    | some overlay => ⟨.answer overlay.2, findings, []⟩
    | none => ⟨readFile disk path, findings, []⟩
  report := (fileSystem disk root).report

end Host

end ConfigGraph
