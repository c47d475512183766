import ContentTypes.Declaration.Unit
import ContentTypes.FileTree.Access
import ContentTypes.Settings

/-!
# Projects and their schema files

A project is a directory with settings. The schemas of its entities lie in a directory for each entity,
and further ones are named by the settings; the schemas of its components lie in a directory for each
category. Directories that are missing hold no schemas. Names are Unicode text, so a directory is found
again under the text of its name, and the stem that names a component is always one.
-/

namespace ContentTypes

open Declaration (ContentKind GeneratedUnit SchemaError)

structure Project where
  root : Path
  settings : Settings
  deriving DecidableEq, Repr

structure ComponentFile where
  path : Path
  category : String
  deriving DecidableEq, Repr

inductive SchemaFile where
  | entity (path : Path)
  | component (file : ComponentFile)
  deriving DecidableEq, Repr

inductive SchemaFileError where
  | unreadable (error : FileError)
  | invalid (error : SchemaError)
  deriving DecidableEq, Repr

def SchemaFileError.message (path : Path) : SchemaFileError → String
  | unreadable error => error.report
  | invalid error => error.messageAt path.text

namespace SchemaFile

def kind : SchemaFile → ContentKind
  | entity _ => .entity
  | component _ => .component

def path : SchemaFile → Path
  | entity path => path
  | component file => file.path

end SchemaFile

/-- The unit of the schema at a path. Every file has a stem, and being Unicode text it names the
component as it is. -/
def Declaration.GeneratedUnit.ofFile (tree : FileTree) (kind : ContentKind) (path : Path) :
    Except SchemaFileError GeneratedUnit := do
  let source ← (tree.readText path).mapError .unreadable
  let unit := match kind with
    | .entity => GeneratedUnit.ofEntity source
    | .component => GeneratedUnit.ofComponent source (path.stem?.getD "")
  unit.mapError .invalid

namespace Project

def entityPath (project : Project) (name : String) : Path :=
  [⟨name⟩, ⟨"content-types"⟩, ⟨name⟩, ⟨"schema.json"⟩].foldl Path.join
    (project.settings.apiDir project.root)

/-- The names of the entities that have a directory. Hidden directories do not count. -/
def entityNames (project : Project) (tree : FileTree) : List String :=
  (tree.childrenAt (project.settings.apiDir project.root)).filterMap fun (name, entry) =>
    if entry = .directory ∧ name.text.toList.head? ≠ some '.' then some name.text else none

def entityFiles (project : Project) (tree : FileTree) : List Path :=
  ((project.entityNames tree).map project.entityPath
    ++ project.settings.includePaths project.root).filter tree.fileExists

def categoryFiles (tree : FileTree) (parent : Path) (category : String) : List ComponentFile :=
  let directory := parent.join ⟨category⟩
  (tree.childrenAt directory).filterMap fun (name, entry) =>
    match entry with
    | .directory => none
    | .file _ =>
      let path := directory.join ⟨name.text⟩
      if path.extension? = some "json" then some ⟨path, category⟩ else none

def componentFiles (project : Project) (tree : FileTree) : List ComponentFile :=
  let directory := project.settings.componentsDir project.root
  (tree.childrenAt directory).flatMap fun (name, _) => categoryFiles tree directory name.text

def schemaFiles (project : Project) (tree : FileTree) : List SchemaFile :=
  (project.entityFiles tree).map .entity ++ (project.componentFiles tree).map .component

end Project

end ContentTypes
