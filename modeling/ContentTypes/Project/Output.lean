import ContentTypes.Project.Plan

/-!
# Writing a plan

The files of a plan are written one after the other, up to the first that fails. What has been written
until then stays.
-/

namespace ContentTypes

inductive WriteOutcome where
  | written
  | unchanged
  deriving DecidableEq, Repr

structure WriteReport where
  written : List Path
  unchanged : Nat
  skipped : List SkippedSchema
  deriving DecidableEq, Repr

namespace WriteReport

def ofOutcomes (outcomes : List (Path × WriteOutcome)) (skipped : List SkippedSchema) :
    WriteReport where
  written := (outcomes.filter (·.2 = .written)).map Prod.fst
  unchanged := outcomes.countP (·.2 = .unchanged)
  skipped

end WriteReport

namespace Project

def target (project : Project) (file : PlannedFile) : Path :=
  (project.settings.outputDir project.root).join file.path

def leavesAlone (project : Project) (tree : FileTree) (file : PlannedFile) : Bool :=
  project.settings.output.skipUnchanged && tree.holdsText (project.target file) file.contents

/-- Writes a file after making its directory. Proofs open it by name, and nothing computes it
on the way. -/
@[irreducible] def writeFile (project : Project) (tree : FileTree) (file : PlannedFile) :
    FileTree × Except FileError WriteOutcome :=
  match tree.makeDirectories ((project.target file).parent?.getD ⟨""⟩) with
  | (tree, .error error) => (tree, .error error)
  | (tree, .ok ()) =>
    if project.leavesAlone tree file then (tree, .ok .unchanged)
    else
      match tree.writeText (project.target file) file.contents with
      | .ok tree => (tree, .ok .written)
      | .error error => (tree, .error error)

def writeFiles (project : Project) (tree : FileTree) :
    List PlannedFile → FileTree × Except FileError (List (Path × WriteOutcome))
  | [] => (tree, .ok [])
  | file :: files =>
    match project.writeFile tree file with
    | (tree, .error error) => (tree, .error error)
    | (tree, .ok outcome) =>
      let (tree, outcomes) := project.writeFiles tree files
      (tree, outcomes.map ((file.path, outcome) :: ·))

def write (project : Project) (tree : FileTree) (plan : Plan) :
    FileTree × Except FileError WriteReport :=
  let (tree, outcomes) := project.writeFiles tree plan.files
  (tree, outcomes.map (.ofOutcomes · plan.skipped))

def run (project : Project) (tree : FileTree) : FileTree × Except FileError WriteReport :=
  project.write tree (project.plan tree)

end Project

end ContentTypes
