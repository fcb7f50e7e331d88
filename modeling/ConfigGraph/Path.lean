import ConfigGraph.Text.Basic

/-!
# Paths

A path is a text whose segments stand between slashes.  `Path.normalize` walks the segments of a path
and writes down where the walk ends, so that two spellings of one walk have one normal form.
`Path.join`, `Path.parent` and `Path.absolute` place a path below others.
-/

namespace ConfigGraph.Path

/-- The code point between segments. -/
def slash : CodePoint := '/'

def isAbsolute (path : Text) : Bool := path.head? == some slash

/-- The root of a path.  Two slashes at the start are a root of their own, and three or more are as
good as one. -/
def root (path : Text) : Text :=
  match (path.takeWhile (· == slash)).length with
  | 0 => []
  | 2 => [slash, slash]
  | _ => [slash]

/-- The segments of a path, empty ones included. -/
def segments (path : Text) : List Text := path.splitOn slash

/-- Goes one segment further from a place, whose segments are given the innermost first.  There is
nothing above a root. -/
def enter (rooted : Bool) (place : List Text) (segment : Text) : List Text :=
  if segment = [] ∨ segment = ("." : Text) then place
  else if segment = (".." : Text) then
    match place with
    | [] => if rooted then [] else [segment]
    | innermost :: outer => if innermost = segment then segment :: place else outer
  else segment :: place

/-- The place to which a path leads, from the outermost segment to the innermost. -/
def walk (path : Text) : List Text :=
  ((segments path).foldl (enter (isAbsolute path)) []).reverse

/-- The normal form of a path: its root, and the segments of the place to which it leads. -/
def normalize (path : Text) : Text :=
  match root path ++ Text.join [slash] (walk path) with
  | [] => "."
  | normal => normal

/-- A path as seen from a directory.  An absolute path stays as it is. -/
def join (directory path : Text) : Text :=
  if isAbsolute path then path
  else if directory = [] ∨ directory.getLast? = some slash then directory ++ path
  else directory ++ slash :: path

/-- A path without the slashes at its end. -/
def trimSlashes (path : Text) : Text := (path.reverse.dropWhile (· == slash)).reverse

/-- The directory of a path: all before the last slash, or the slashes of the root. -/
def parent (path : Text) : Text :=
  let leading := (path.reverse.dropWhile (· != slash)).reverse
  if leading.all (· == slash) then leading else trimSlashes leading

/-- The normal form of a path as seen from a directory. -/
def absolute (directory path : Text) : Text := normalize (join directory path)

end ConfigGraph.Path
