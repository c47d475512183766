/-!
# Paths

A path is a text. Joining and comparing paths looks at the text alone: no `..` is resolved, and two
paths are the same if their components are.
-/

namespace ContentTypes

structure Path where
  text : String
  deriving DecidableEq, Repr, Inhabited

namespace Path

inductive Component where
  | root
  | current
  | parent
  | normal (name : String)
  deriving DecidableEq, Repr

def isAbsolute (path : Path) : Bool :=
  path.text.toList.head? = some '/'

def endsWithSlash (path : Path) : Bool :=
  path.text.toList.getLast? = some '/'

def pieces (path : Path) : List String :=
  ((path.text.toList.splitOn '/').filter (· ≠ [])).map String.ofList

def componentOfPiece (piece : String) : Option Component :=
  if piece = "." then none
  else if piece = ".." then some .parent
  else some (.normal piece)

/-- A `.` counts only at the beginning of a relative path. -/
def components (path : Path) : List Component :=
  let front :=
    if path.isAbsolute then [.root]
    else if path.pieces.head? = some "." then [.current]
    else []
  front ++ path.pieces.filterMap componentOfPiece

def same (path other : Path) : Bool :=
  path.components = other.components

/-- The path `right` as seen from `left`. An absolute path stays as it is. -/
def join (left right : Path) : Path :=
  if right.isAbsolute || left.text = "" then right
  else if left.endsWithSlash then ⟨left.text ++ right.text⟩
  else ⟨left.text ++ "/" ++ right.text⟩

def Component.text : Component → String
  | root => ""
  | current => "."
  | parent => ".."
  | normal name => name

def ofComponents (components : List Component) : Path :=
  if components = [.root] then ⟨"/"⟩ else ⟨"/".intercalate (components.map (·.text))⟩

def parent? (path : Path) : Option Path :=
  match path.components.getLast? with
  | none | some .root => none
  | some _ => some (ofComponents path.components.dropLast)

def fileName? (path : Path) : Option String :=
  match path.components.getLast? with
  | some (.normal name) => some name
  | _ => none

/-- A file name cut at its last dot, unless that is its first character. -/
def cutExtension (name : List Char) : List Char × Option (List Char) :=
  let reversed := name.reverse
  let extension := reversed.takeWhile (· ≠ '.')
  match reversed.drop extension.length with
  | [] | [_] => (name, none)
  | _ :: stem => (stem.reverse, some extension.reverse)

def stem? (path : Path) : Option String :=
  path.fileName?.map fun name => String.ofList (cutExtension name.toList).1

def extension? (path : Path) : Option String := do
  let name ← path.fileName?
  let extension ← (cutExtension name.toList).2
  pure (String.ofList extension)

def addExtension? (path : Path) (extension : String) : Option Path := do
  let name ← path.fileName?
  let parent ← path.parent?
  pure (parent.join ⟨name ++ "." ++ extension⟩)

end Path

end ContentTypes
