import ContentTypes.Diff.Unified
import ContentTypes.Json.Value
import ContentTypes.Project.Output

/-!
# Drift

How the files of the output directory differ from a plan. Nothing is written.
-/

namespace ContentTypes

open Diff (Difference)

/-- How the file at a planned path stands to the plan. -/
inductive FileState where
  | missing
  | upToDate
  | changed (difference : Difference)
  deriving DecidableEq, Repr

structure FileDrift where
  path : Path
  difference : Difference
  deriving DecidableEq, Repr

structure DriftReport where
  missing : List Path
  changed : List FileDrift
  upToDate : Nat
  skipped : List SkippedSchema
  deriving DecidableEq, Repr

namespace DriftReport

def ofStates (states : List (Path × FileState)) (skipped : List SkippedSchema) : DriftReport where
  missing := (states.filter (·.2 = .missing)).map Prod.fst
  changed := states.filterMap fun (path, state) =>
    match state with
    | .changed difference => some ⟨path, difference⟩
    | _ => none
  upToDate := states.countP (·.2 = .upToDate)
  skipped

def hasDrift (report : DriftReport) : Bool :=
  !report.missing.isEmpty || !report.changed.isEmpty

def toJson (report : DriftReport) : Json.Value :=
  .object [
    ("missing", .array (report.missing.map fun path => .string path.text)),
    ("changed", .array (report.changed.map fun drift => .object [
      ("path", .string drift.path.text),
      ("added", .number (.integer drift.difference.added)),
      ("removed", .number (.integer drift.difference.removed)),
      ("diff", .string drift.difference.text)])),
    ("up_to_date", .number (.integer report.upToDate)),
    ("skipped", .array (report.skipped.map fun schema => .object [
      ("path", .string schema.path.text),
      ("reason", .string schema.message)]))]

end DriftReport

namespace Project

def fileState (project : Project) (tree : FileTree) (file : PlannedFile) :
    Except FileError FileState :=
  match tree.readText (project.target file) with
  | .error .notFound => .ok .missing
  | .error error => .error error
  | .ok text =>
    if text = file.contents then .ok .upToDate
    else .ok (.changed (Diff.difference file.path.text text file.contents))

def check (project : Project) (tree : FileTree) (plan : Plan) : Except FileError DriftReport := do
  let states ← plan.files.mapM fun file => do pure (file.path, ← project.fileState tree file)
  pure (.ofStates states plan.skipped)

end Project

end ContentTypes
