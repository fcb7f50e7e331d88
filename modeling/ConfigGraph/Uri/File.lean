import ConfigGraph.Path
import ConfigGraph.Uri.Basic
import ConfigGraph.Uri.Percent

/-!
# Paths of files as URIs

`Path.toUri` writes an absolute path as a URI, and `Path.ofUri` reads the path of any URI, whatever
its scheme and its authority are.
-/

namespace ConfigGraph.Path

/-- The path that a URI names, as seen from a directory. -/
def ofUri (directory uri : Text) : Except Uri.Fault Text :=
  (Uri.parse uri).map fun parts => absolute directory (Percent.decode parts.path)

/-- A path without its empty segments and those that stay in place. -/
def condense (path : Text) : Text :=
  root path ++ Text.join [slash]
    ((segments path).filter fun segment => segment != [] && segment != ("." : Text))

/-- The URI of the file at an absolute path. -/
def toUri (path : Text) : Except Uri.Fault Text :=
  if isAbsolute path then
    match Text.encodeEscaped (condense path) with
    | .ok bytes => .ok ("file://" ++ Percent.encode bytes)
    | .error fault => .error (.unencodable fault)
  else .error .relativePath

end ConfigGraph.Path
