import ContentTypes.FileTree

/-!
# Access by path

A path is followed step by step, and every directory that it names on the way has to be there, also
one that a later `..` leaves again. Reading looks at the end of the path; writing puts a file there,
and makes directories.
-/

namespace ContentTypes

inductive FileError where
  | notFound
  | alreadyExists
  | notDirectory
  | isDirectory
  | notUtf8
  | nulInName
  deriving DecidableEq, Repr

def FileError.message : FileError → String
  | notFound => "No such file or directory (os error 2)"
  | alreadyExists => "File exists (os error 17)"
  | notDirectory => "Not a directory (os error 20)"
  | isDirectory => "Is a directory (os error 21)"
  | notUtf8 => "stream did not contain valid UTF-8"
  | nulInName => "file name contained an unexpected NUL byte"

def FileError.report (error : FileError) : String :=
  "IO error: " ++ error.message

inductive Step where
  | stay
  | up
  | down (name : FileName)
  deriving DecidableEq

def Step.ofPiece (piece : String) : Option Step :=
  if piece = "." then some .stay
  else if piece = ".." then some .up
  else if h : IsFileName piece then some (.down ⟨piece, h⟩)
  else none

def Path.steps (path : Path) : List Step :=
  path.pieces.filterMap Step.ofPiece

namespace FileTree

abbrev Directory (tree : FileTree) := { location : Location // tree.IsDirectory location }

theorem isDirectory_nil (tree : FileTree) : tree.IsDirectory [] := by
  simp [IsDirectory, get?]

theorem isDirectory_tail {tree : FileTree} {location : Location} (h : tree.IsDirectory location) :
    tree.IsDirectory location.tail := by
  cases location with
  | nil => exact h
  | cons name parent => exact isDirectory_of_get?_cons h

def step (tree : FileTree) (here : tree.Directory) : Step → Except FileError tree.Directory
  | .stay => .ok here
  | .up => .ok ⟨here.1.tail, isDirectory_tail here.2⟩
  | .down name =>
    match h : tree.get? (name :: here.1) with
    | some .directory => .ok ⟨name :: here.1, h⟩
    | some (.file _) => .error .notDirectory
    | none => .error .notFound

def start (tree : FileTree) (path : Path) : Except FileError tree.Directory :=
  if path.isAbsolute then .ok ⟨[], tree.isDirectory_nil⟩
  else if h : tree.IsDirectory tree.workingDirectory then .ok ⟨tree.workingDirectory, h⟩
  else .error .notFound

/-- Where a path leads: to a directory, or to a name in one, at which there may be nothing. -/
inductive Place (tree : FileTree) where
  | directory (location : tree.Directory)
  | named (parent : tree.Directory) (name : FileName)

def locate (tree : FileTree) (path : Path) : Except FileError tree.Place := do
  if '\x00' ∈ path.text.toList then throw .nulInName
  if path.text = "" then throw .notFound
  let start ← tree.start path
  match path.steps.getLast? with
  | none => pure (.directory start)
  | some last =>
    let parent ← path.steps.dropLast.foldlM tree.step start
    match last with
    | .down name => pure (.named parent name)
    | last => do pure (.directory (← tree.step parent last))

/-- What is at a path. One that ends with a slash leads to no file. -/
def entryAt (tree : FileTree) (path : Path) : Except FileError FileEntry := do
  match ← tree.locate path with
  | .directory _ => pure .directory
  | .named parent name =>
    match tree.get? (name :: parent.1) with
    | none => throw .notFound
    | some .directory => pure .directory
    | some (.file contents) =>
      if path.endsWithSlash then throw .notDirectory else pure (.file contents)

def fileExists (tree : FileTree) (path : Path) : Bool :=
  match tree.entryAt path with
  | .ok (.file _) => true
  | _ => false

def directoryExists (tree : FileTree) (path : Path) : Bool :=
  match tree.entryAt path with
  | .ok .directory => true
  | _ => false

def pathExists (tree : FileTree) (path : Path) : Bool :=
  match tree.entryAt path with
  | .ok _ => true
  | .error _ => false

def readText (tree : FileTree) (path : Path) : Except FileError String := do
  match ← tree.entryAt path with
  | .directory => throw .isDirectory
  | .file contents =>
    match String.fromUTF8? contents with
    | some text => pure text
    | none => throw .notUtf8

def holdsText (tree : FileTree) (path : Path) (text : String) : Bool :=
  match tree.readText path with
  | .ok current => current = text
  | .error _ => false

theorem fromUTF8?_toUTF8 (text : String) : String.fromUTF8? text.toUTF8 = some text :=
  dif_pos text.isValidUTF8

def childrenAt (tree : FileTree) (path : Path) : List (FileName × FileEntry) :=
  match tree.locate path with
  | .ok (.directory location) => tree.children location.1
  | .ok (.named parent name) =>
    if tree.IsDirectory (name :: parent.1) then tree.children (name :: parent.1) else []
  | .error _ => []

/-- A tree after a change that may have failed, and may then have been made in part. -/
abbrev Change := FileTree × Except FileError Unit

def makeDirectory (tree : FileTree) (path : Path) : Except FileError FileTree := do
  match ← tree.locate path with
  | .directory _ => throw .alreadyExists
  | .named parent name =>
    match tree.get? (name :: parent.1) with
    | some _ => throw .alreadyExists
    | none => pure (tree.insert name parent.1 .directory parent.2 (.inr rfl))

def ensureDirectory (tree : FileTree) (path : Path) : Change :=
  match tree.makeDirectory path with
  | .ok tree => (tree, .ok ())
  | .error error => (tree, if tree.directoryExists path then .ok () else .error error)

/-- Makes the directory whose path has the given components, the last one first. If the one that it
is to lie in is missing, that one is made before. -/
def makeAncestors (tree : FileTree) : List Path.Component → Change
  | [] => (tree, .ok ())
  | last :: before =>
    let path := Path.ofComponents (last :: before).reverse
    match tree.makeDirectory path with
    | .ok tree => (tree, .ok ())
    | .error .notFound =>
      match tree.makeAncestors before with
      | (tree, .ok ()) => tree.ensureDirectory path
      | failed => failed
    | .error error => (tree, if tree.directoryExists path then .ok () else .error error)

def makeDirectories (tree : FileTree) (path : Path) : Change :=
  tree.makeAncestors path.components.reverse

def writeBytes (tree : FileTree) (path : Path) (contents : ByteArray) :
    Except FileError FileTree := do
  match ← tree.locate path with
  | .directory _ => throw .isDirectory
  | .named parent name =>
    if h : path.endsWithSlash ∨ tree.IsDirectory (name :: parent.1) then throw .isDirectory
    else pure (tree.insert name parent.1 (.file contents) parent.2 (.inl fun hd => h (.inr hd)))

def writeText (tree : FileTree) (path : Path) (text : String) : Except FileError FileTree :=
  tree.writeBytes path text.toUTF8

def removeAt (tree : FileTree) (path : Path) : Except FileError FileTree := do
  discard (tree.entryAt path)
  match ← tree.locate path with
  | .directory location => pure (tree.remove location.1)
  | .named parent name => pure (tree.remove (name :: parent.1))

/-- All that lies below a place, by the names that lead there from it, the outermost first. -/
def below (tree : FileTree) (place : Location) : List (List FileName × FileEntry) :=
  tree.entries.filterMap fun (location, entry) =>
    if place.isSuffixOf location ∧ location ≠ place then
      some ((location.take (location.length - place.length)).reverse, entry)
    else none

def changesSince (tree older : FileTree) : List (Path × FileEntry) :=
  let changed := tree.entries.filter fun (location, entry) => older.get? location ≠ some entry
  (changed.mergeSort fun a b => a.1.length ≤ b.1.length).map fun (location, entry) =>
    (⟨"/" ++ "/".intercalate (location.reverse.map (·.text))⟩, entry)

def changeDirectory (tree : FileTree) (path : Path) : Except FileError FileTree := do
  match ← tree.locate path with
  | .directory location => pure { tree with workingDirectory := location.1 }
  | .named parent name =>
    if tree.IsDirectory (name :: parent.1) then
      pure { tree with workingDirectory := name :: parent.1 }
    else throw .notDirectory

end FileTree

end ContentTypes
