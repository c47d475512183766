import ContentTypes.Declaration.Support
import ContentTypes.Project.SchemaFile

/-!
# Plans

What a run writes: for each file its path in the output directory, its contents, and where it comes
from. The first schema that is given a path keeps it; support files make way for schemas. A schema
without a file is skipped for a reason.
-/

namespace ContentTypes

open Declaration (ContentKind GeneratedUnit SupportFile)

inductive FileSource where
  | support
  | schema (kind : ContentKind) (path : Path)
  deriving DecidableEq, Repr

structure PlannedFile where
  path : Path
  contents : String
  source : FileSource
  deriving DecidableEq, Repr

def PlannedFile.ofSupport (file : SupportFile) : PlannedFile where
  path := ⟨file.fileName⟩
  contents := file.contents
  source := .support

inductive SkipReason where
  | unusable (error : SchemaFileError)
  | collision (output first : Path)
  deriving DecidableEq, Repr

structure SkippedSchema where
  path : Path
  reason : SkipReason
  deriving DecidableEq, Repr

def SkippedSchema.message (skipped : SkippedSchema) : String :=
  match skipped.reason with
  | .unusable error => error.message skipped.path
  | .collision output first =>
    "Output collision: " ++ Text.doubleQuoted output.text ++ " already produced by "
      ++ Text.doubleQuoted first.text

structure Plan where
  files : List PlannedFile := []
  skipped : List SkippedSchema := []
  deriving DecidableEq, Repr

namespace FileSource

def name : FileSource → String
  | support => "boilerplate"
  | schema .entity _ => "entity"
  | schema .component _ => "component"

def schemaPath? : FileSource → Option Path
  | support => none
  | schema _ path => some path

def names : List String := ["boilerplate", "component", "entity"]

end FileSource

namespace Plan

def file? (plan : Plan) (path : Path) : Option PlannedFile :=
  plan.files.find? (·.path.same path)

def skip (plan : Plan) (path : Path) (reason : SkipReason) : Plan :=
  { plan with skipped := plan.skipped ++ [⟨path, reason⟩] }

/-- The place of the support file that a file is to replace. Only the file of a schema replaces one. -/
def supportSlot? (plan : Plan) (file : PlannedFile) : Option Nat :=
  if file.source = .support then none
  else plan.files.findIdx? fun other => other.path.same file.path && other.source = .support

/-- Leaves a file out because `first` has its path. Of a support file nothing is recorded. -/
def refuse (plan : Plan) (file first : PlannedFile) : Plan :=
  match file.source.schemaPath? with
  | some schema =>
    plan.skip schema (.collision file.path (first.source.schemaPath?.getD ⟨"<boilerplate>"⟩))
  | none => plan

/-- Adds a file, unless one that it cannot replace has its path. -/
def add (plan : Plan) (file : PlannedFile) : Plan :=
  match plan.supportSlot? file with
  | some slot => { plan with files := plan.files.set slot file }
  | none =>
    match plan.file? file.path with
    | some first => plan.refuse file first
    | none => { plan with files := plan.files ++ [file] }

def addFile (tree : FileTree) (plan : Plan) (file : SchemaFile) : Plan :=
  match GeneratedUnit.ofFile tree file.kind file.path with
  | .ok unit => plan.add ⟨unit.path, unit.render, .schema file.kind file.path⟩
  | .error error => plan.skip file.path (.unusable error)

def support : Plan :=
  (SupportFile.all.map PlannedFile.ofSupport).foldl add {}

def counts (plan : Plan) : List (String × Nat) :=
  (FileSource.names.map fun name => (name, plan.files.countP (·.source.name = name))).filter
    (·.2 ≠ 0)

end Plan

def Project.plan (project : Project) (tree : FileTree) : Plan :=
  (project.schemaFiles tree).foldl (Plan.addFile tree)
    (if project.settings.output.writeSupport then .support else {})

end ContentTypes
