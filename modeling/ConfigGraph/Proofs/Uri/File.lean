import ConfigGraph.LanguageServer
import ConfigGraph.Proofs.Host.FileSystem
import ConfigGraph.Proofs.Uri.Percent

/-!
# Paths and their URIs

The URI of the file at a path in normal form is read as that path again, whatever characters the path
is made of.  So a URI that a server publishes names the path for which it has been made, and imports
may be written in both ways.
-/

namespace ConfigGraph

open Percent (IsWritten)

/-! ## The parts of the URI of a file -/

namespace Uri

theorem clean_of_isWritten {text : Text} (written : ∀ code ∈ text, IsWritten code) :
    clean text = text := by
  have notBreak : ∀ code ∈ text, (!isBreak code) = true := by
    intro code member
    have visible := (written code member).visible
    simp only [isBreak, Bool.not_eq_true', Bool.or_eq_false_iff, beq_eq_false_iff_ne]
    refine ⟨⟨?_, ?_⟩, ?_⟩ <;> rintro rfl <;> exact absurd visible (by decide)
  have kept : text.dropWhile isControlOrSpace = text := by
    cases text with
    | nil => rfl
    | cons code rest =>
        have visible := (written code List.mem_cons_self).visible
        rw [List.dropWhile_cons_of_neg]
        simpa [isControlOrSpace] using visible
  rw [clean, kept, List.filter_eq_self.mpr notBreak]

theorem beforeQuery_of_isWritten {text : Text} (written : ∀ code ∈ text, IsWritten code) :
    beforeQuery text = text := by
  refine List.takeWhile_eq_self_iff.mpr fun code member => ?_
  obtain ⟨_, _, notQuery, notFragment⟩ := written code member
  simp [notQuery, notFragment]

theorem isWritten_front : ∀ code ∈ ("file://" : Text), IsWritten code := by
  have all : ∀ code ∈ ("file://" : Text), 0x20 < code.value ∧ code.value < 0x80 ∧
      code ≠ '?' ∧ code ≠ '#' := by
    decide
  intro code member
  obtain ⟨visible, ascii, notQuery, notFragment⟩ := all code member
  exact ⟨visible, ascii, notQuery, notFragment⟩

/-- The URI of a file has no authority, and its path ends with it. -/
theorem parse_file {path : Text} (absolute : Path.isAbsolute path = true)
    (written : ∀ code ∈ path, IsWritten code) :
    parse ("file://" ++ path) = .ok ⟨"file", [], path⟩ := by
  have cleaned := @clean_of_isWritten ("file://" ++ path) fun code member =>
    (List.mem_append.mp member).elim (isWritten_front code) (written code)
  have schemed : splitScheme ("file://" ++ path) = (("file" : Text), ("//" : Text) ++ path) := rfl
  have authorized : splitAuthority (("//" : Text) ++ path) = ([], path) := by
    obtain ⟨rest, rfl⟩ := Path.eq_cons_of_isAbsolute absolute
    rfl
  have plain : schemesWithParameters.contains ("file" : Text) = false := by decide
  simp only [parse, cleaned, schemed, authorized, beforeQuery_of_isWritten written, plain]
  rfl

end Uri

/-! ## Paths in normal form -/

namespace Path

variable {path : Text}

/-- The segments of a path that are kept in its URI. -/
def namedSegments (path : Text) : List Text :=
  (segments path).filter fun segment => segment != [] && segment != ("." : Text)

theorem namedSegments_slash_cons (path : Text) :
    namedSegments (slash :: path) = namedSegments path := by
  have segmented := Text.splitOn_append_cons slash [] path
  rw [List.nil_append] at segmented
  rw [namedSegments, segments, segmented, List.filter_append]
  rfl

/-- All segments of a place are kept. -/
theorem namedSegments_join {start : List Text} (isPlace : IsPlace start) :
    namedSegments (Text.join [slash] start) = start := by
  cases start with
  | nil => rfl
  | cons segment others =>
      rw [namedSegments, segments, Text.splitOn_join (List.cons_ne_nil _ _)
        fun other member => (isPlace other member).noSlash]
      refine List.filter_eq_self.mpr fun other member => ?_
      obtain ⟨nonempty, notDot, _, _⟩ := isPlace other member
      simp [nonempty, notDot]

/-- A path in normal form is its root with nothing but a place behind it. -/
theorem condense_of_isNormal (isNormal : IsNormal path) : condense path = path := by
  obtain ⟨start, isPlace, spelled⟩ :
      ∃ start, IsPlace start ∧ path = root path ++ Text.join [slash] start := by
    refine ⟨place path, isPlace_place path, ?_⟩
    rw [← normalize_of_isAbsolute isNormal.absolute, isNormal.normal]
  have kept : namedSegments path = start := by
    rcases root_cases isNormal.absolute with single | double
    · rw [single, List.singleton_append] at spelled
      rw [spelled, namedSegments_slash_cons, namedSegments_join isPlace]
    · rw [double, List.cons_append, List.singleton_append] at spelled
      rw [spelled, namedSegments_slash_cons, namedSegments_slash_cons, namedSegments_join isPlace]
  rw [condense, ← namedSegments, kept, ← spelled]

theorem isAbsolute_encode (absolute : isAbsolute path = true) :
    isAbsolute (Percent.encode (path.flatMap Text.encodeCodePoint)) = true := by
  obtain ⟨rest, rfl⟩ := eq_cons_of_isAbsolute absolute
  rfl

/-- The URI of the file at a path in normal form. -/
def fileUri (path : Text) : Text :=
  "file://" ++ Percent.encode (path.flatMap Text.encodeCodePoint)

theorem toUri_of_encodeEscaped (isNormal : IsNormal path) {bytes : List UInt8}
    (encoded : Text.encodeEscaped path = .ok bytes) :
    toUri path = .ok ("file://" ++ Percent.encode bytes) := by
  rw [toUri, if_pos isNormal.absolute, condense_of_isNormal isNormal, encoded]

theorem toUri_of_isNormal (isNormal : IsNormal path) (encodable : path.isEncodable = true) :
    toUri path = .ok (fileUri path) :=
  toUri_of_encodeEscaped isNormal (Text.encodeEscaped_of_isEncodable encodable)

theorem ofUri_fileUri (isNormal : IsNormal path) (encodable : path.isEncodable = true)
    (directory : Text) : ofUri directory (fileUri path) = .ok path := by
  have parsed := Uri.parse_file (isAbsolute_encode isNormal.absolute) fun _ member =>
    Percent.isWritten_of_mem_encode member
  rw [ofUri, fileUri, parsed, Except.map]
  rw [Percent.decode_encode encodable, absolute_of_isNormal directory isNormal]

theorem eq_of_fileUri_eq {other : Text} (isNormal : IsNormal path)
    (encodable : path.isEncodable = true) (otherNormal : IsNormal other)
    (otherEncodable : other.isEncodable = true) (same : fileUri other = fileUri path) :
    other = path := by
  have read := ofUri_fileUri otherNormal otherEncodable []
  rw [same, ofUri_fileUri isNormal encodable] at read
  exact (Except.ok.inj read).symm

end Path

/-! ## Lists and imports -/

theorem LanguageServer.withUris_append_cons {α : Type} {path uri : Text}
    (written : Path.toUri path = .ok uri) (before after : List (Text × α)) (entry : α) :
    withUris (before ++ (path, entry) :: after) = do
      return (← withUris before) ++ (uri, entry) :: (← withUris after) := by
  simp only [withUris, List.mapM_append, List.mapM_cons, written, bind_assoc, pure_bind]
  rfl

/-- An import that is the URI of a path in normal form leads to the path. -/
theorem Host.target_fileUri {path : Text} (isNormal : Path.IsNormal path)
    (encodable : path.isEncodable = true) (disk : Disk) (root : Text) {resolution : Resolution}
    (isUri : resolution.written = Path.fileUri path) : target disk root resolution = .ok path := by
  have isFile : (Path.fileUri path).startsWith "file:" = true := rfl
  rw [target, isUri, if_pos isFile, Path.ofUri_fileUri isNormal encodable]

/-- A URI that stands for the file at a path. -/
structure Path.HasUri (path uri : Text) : Prop where
  written : toUri path = .ok uri
  /-- The URI is read as the path, seen from any directory. -/
  read : ∀ directory, ofUri directory uri = .ok path
  /-- No other path in normal form has this URI. -/
  alone : ∀ other, IsNormal other → other.isEncodable = true → toUri other = .ok uri → other = path
  /-- What a server publishes for the path stands under the URI in the list. -/
  published : ∀ {α : Type} (before after : List (Text × α)) (entry : α),
    LanguageServer.withUris (before ++ (path, entry) :: after) = do
      return (← LanguageServer.withUris before) ++ (uri, entry) :: (← LanguageServer.withUris after)
  /-- An import may be written as the URI or as the path. -/
  resolved : ∀ (disk : Disk) (root : Text) (resolution : Resolution) (findings : Findings),
    resolution.written = uri ∨ resolution.written = path →
      ((Host.fileSystem disk root).resolve resolution findings).reply =
        Host.replyAt disk.contains resolution.written path

/-- Each absolute path in normal form, whatever its characters, has a URI of its own that stands for
the path wherever one is read. -/
theorem Path.hasUri_of_isNormal {path : Text} (isNormal : IsNormal path)
    (encodable : path.isEncodable = true) : ∃ uri, HasUri path uri := by
  have written := toUri_of_isNormal isNormal encodable
  refine ⟨fileUri path, written, ofUri_fileUri isNormal encodable, ?_, ?_, ?_⟩
  · intro other otherNormal otherEncodable otherWritten
    rw [toUri_of_isNormal otherNormal otherEncodable] at otherWritten
    exact eq_of_fileUri_eq isNormal encodable otherNormal otherEncodable
      (Except.ok.inj otherWritten)
  · exact LanguageServer.withUris_append_cons written
  · intro disk root resolution findings isEither
    rcases isEither with isUri | isPath
    · exact Host.reply_resolveFile (Host.target_fileUri isNormal encodable disk root isUri) findings
    · have leads := @Host.target_of_isNormal root disk resolution (isPath ▸ isNormal)
      rw [isPath] at leads
      exact Host.reply_resolveFile leads findings

/-- A path of characters that are not written as they are in a URI. -/
def reservedPath : Text := "//a b/%41?#;\n\x01/ä€😀\\[v"

theorem Path.hasUri_of_isNormal_reserved :
    IsNormal reservedPath ∧ reservedPath.isEncodable = true ∧ ∃ uri, HasUri reservedPath uri := by
  have isNormal : IsNormal reservedPath := ⟨by decide, by decide⟩
  have encodable : reservedPath.isEncodable = true := by decide
  exact ⟨isNormal, encodable, hasUri_of_isNormal isNormal encodable⟩

example : Path.fileUri "/a b" = "file:///a%20b" := by decide

end ConfigGraph
