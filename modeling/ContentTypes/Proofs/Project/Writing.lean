import ContentTypes.Proofs.Project.Effect
import ContentTypes.Project.Drift

/-!
# Writing and then checking

Writing a plan lets the tree grow at the targets of its files, whether it succeeds or not:
`writeFiles_grows`. If it succeeds, and no two targets are one place, each target holds the text of its
file in the end, so a check that follows finds nothing to report: `check_after_write`.
-/

namespace ContentTypes.Project

variable {project : Project} {tree after : FileTree} {file : PlannedFile}

-- ---------------------------------------------------------------------------
-- Targets
-- ---------------------------------------------------------------------------

theorem destination_target (project : Project) (tree : FileTree) (h : file.path.GoesDown) :
    tree.destination (project.target file) =
      file.path.names.reverse ++ tree.destination (project.settings.outputDir project.root) := by
  rw [target, FileTree.destination_join _ _ h.1, h.foldl_steps]

theorem same_of_destination_eq {other : PlannedFile} (h : file.path.IsNormal)
    (ho : other.path.IsNormal)
    (he : tree.destination (project.target file) = tree.destination (project.target other)) :
    file.path.same other.path = true := by
  rw [destination_target _ _ h.goesDown, destination_target _ _ ho.goesDown] at he
  exact h.same_of_names ho (List.reverse_inj.1 (List.append_cancel_right he))

-- ---------------------------------------------------------------------------
-- One file
-- ---------------------------------------------------------------------------

theorem writeFile_grows (project : Project) (tree : FileTree) (file : PlannedFile) :
    tree.Grows [tree.destination (project.target file)] (project.writeFile tree file).1 := by
  cases h : project.writeFile tree file with
  | mk after result =>
    cases result with
    | error error => exact (grows_of_writeFile_eq_error h).mono (List.nil_subset _)
    | ok outcome => exact (receives_of_writeFile h).grows

theorem readText_writeFile {outcome : WriteOutcome}
    (h : project.writeFile tree file = (after, .ok outcome)) :
    after.readText (project.target file) = .ok file.contents := by
  obtain ⟨mid, -, ⟨hleft, -, rfl⟩ | ⟨-, -, hwritten⟩⟩ := writeFile_eq_ok h
  · exact FileTree.holdsText_iff.1 (Bool.and_eq_true_iff.1 hleft).2
  · exact FileTree.readText_writeText hwritten

-- ---------------------------------------------------------------------------
-- All files
-- ---------------------------------------------------------------------------

def destinations (project : Project) (tree : FileTree) (files : List PlannedFile) : List Location :=
  files.map fun file => tree.destination (project.target file)

theorem destinations_of_grows {places : List Location} (h : tree.Grows places after)
    (files : List PlannedFile) :
    project.destinations after files = project.destinations tree files := by
  simp [destinations, h.destination]

theorem writeFiles_grows (project : Project) (tree : FileTree) (files : List PlannedFile) :
    tree.Grows (project.destinations tree files) (project.writeFiles tree files).1 := by
  obtain ⟨count, -, -, hreceives⟩ := project.writeFiles_receives tree files
  refine hreceives.grows.mono ?_
  simp only [writes, destinations, List.map_map]
  exact ((List.take_sublist count files).map _).subset

theorem readText_writeFiles {files : List PlannedFile} {outcomes : List (Path × WriteOutcome)}
    (h : project.writeFiles tree files = (after, .ok outcomes))
    (hnodup : (project.destinations tree files).Nodup) (hm : file ∈ files) :
    after.readText (project.target file) = .ok file.contents := by
  induction files generalizing tree outcomes with
  | nil => cases hm
  | cons first others ih =>
    obtain ⟨mid, outcome, rest, hw, hr, -⟩ := writeFiles_cons_eq_ok h
    have hfirst := project.writeFile_grows tree first
    have hothers := project.writeFiles_grows mid others
    rw [hw] at hfirst
    rw [hr] at hothers
    rw [destinations, List.map_cons, List.nodup_cons] at hnodup
    rcases List.mem_cons.1 hm with rfl | hm
    · -- the others go elsewhere
      refine hothers.readText (readText_writeFile hw) ?_
      rw [destinations_of_grows hfirst, hfirst.destination]
      exact hnodup.1
    · exact ih hr (destinations_of_grows hfirst others ▸ hnodup.2) hm

-- ---------------------------------------------------------------------------
-- Checking
-- ---------------------------------------------------------------------------

theorem fileState_eq_upToDate (h : tree.readText (project.target file) = .ok file.contents) :
    project.fileState tree file = .ok .upToDate := by
  unfold fileState
  rw [h]
  exact if_pos rfl

theorem check_eq_of_upToDate {plan : Plan}
    (h : ∀ file ∈ plan.files, tree.readText (project.target file) = .ok file.contents) :
    project.check tree plan =
      .ok (.ofStates (plan.files.map fun file => (file.path, .upToDate)) plan.skipped) := by
  have hstates : plan.files.mapM (fun file => do pure (file.path, ← project.fileState tree file)) =
      .ok (plan.files.map fun file => (file.path, FileState.upToDate)) := by
    refine mapM_eq_ok_of_forall fun file hm => ?_
    rw [fileState_eq_upToDate (h file hm)]
    rfl
  unfold check
  rw [hstates]
  rfl

/-- A check after writing a plan finds every file as it should be. -/
theorem check_after_write {plan : Plan} {report : WriteReport}
    (hnormal : ∀ file ∈ plan.files, file.path.IsNormal)
    (hdistinct : plan.files.Pairwise fun file other => ¬file.path.same other.path)
    (hwrite : project.write tree plan = (after, .ok report)) :
    ∃ drift, project.check after plan = .ok drift ∧ drift.missing = [] ∧ drift.changed = [] ∧
      drift.upToDate = plan.files.length ∧ drift.skipped = plan.skipped ∧
      drift.hasDrift = false := by
  have hnodup : (project.destinations tree plan.files).Nodup := by
    refine List.pairwise_map.2 (hdistinct.imp_of_mem fun hf ho hne he => ?_)
    exact hne (same_of_destination_eq (hnormal _ hf) (hnormal _ ho) he)
  cases hw : project.writeFiles tree plan.files with
  | mk last outcomes =>
    simp only [write, hw] at hwrite
    obtain ⟨rfl, ho⟩ := Prod.mk.inj hwrite
    cases outcomes with
    | error error => cases ho
    | ok outcomes =>
      refine ⟨_, check_eq_of_upToDate fun file hm => readText_writeFiles hw hnodup hm, ?_⟩
      simp [DriftReport.ofStates, DriftReport.hasDrift]

/-- A file that is no text is written over, and a directory that is missing is made. -/
theorem check_after_write_over_bytes :
    let project : Project := ⟨⟨"."⟩, {}⟩
    let made := (FileTree.root.makeDirectories ⟨"types"⟩).1
    let tree := (made.writeBytes ⟨"types/Tag.ts"⟩ ⟨#[0xFF]⟩).toOption.getD made
    let plan : Plan := { files := [
      ⟨⟨"Tag.ts"⟩, "tag", .support⟩, ⟨⟨"components/./Tag.ts"⟩, "embedded tag", .support⟩] }
    (project.write tree plan).2 = .ok ⟨[⟨"Tag.ts"⟩, ⟨"components/./Tag.ts"⟩], 0, []⟩ ∧
      ∃ drift, project.check (project.write tree plan).1 plan = .ok drift ∧ drift.missing = [] ∧
        drift.changed = [] ∧ drift.upToDate = 2 ∧ drift.skipped = [] ∧ drift.hasDrift = false := by
  dsimp only
  refine and_iff_left_of_imp (fun h => ?_) |>.2 (by decide +kernel)
  exact check_after_write (by decide +kernel) (by decide +kernel) (Prod.ext rfl h)

end ContentTypes.Project
