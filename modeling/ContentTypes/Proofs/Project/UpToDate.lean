import ContentTypes.Proofs.FileTree.Agreement
import ContentTypes.Proofs.FileTree.Parents
import ContentTypes.Project.Drift

/-!
# Plans that are up to date

A check without drift has read the contents of every planned file at its target: `readText_of_check`.
Writing such a plan finds every directory and every text in place, so it succeeds and changes nothing:
`write_of_upToDate`.
-/

namespace ContentTypes.Project

variable {project : Project} {tree : FileTree} {file : PlannedFile} {plan : Plan}

/-- Whether every planned file can be read at its target. -/
def IsUpToDate (project : Project) (tree : FileTree) (files : List PlannedFile) : Prop :=
  ∀ file ∈ files, tree.readText (project.target file) = .ok file.contents

-- ---------------------------------------------------------------------------
-- Checks without drift
-- ---------------------------------------------------------------------------

theorem readText_of_fileState (h : project.fileState tree file = .ok .upToDate) :
    tree.readText (project.target file) = .ok file.contents := by
  unfold fileState at h
  split at h
  · cases h
  · cases h
  · rename_i text hr
    split at h
    · rename_i heq
      rw [hr, heq]
    · cases h

section

variable {states : List (Path × FileState)} {skipped : List SkippedSchema} {path : Path}

theorem mem_missing :
    path ∈ (DriftReport.ofStates states skipped).missing ↔ (path, .missing) ∈ states := by
  simp [DriftReport.ofStates]

theorem mem_changed : path ∈ (DriftReport.ofStates states skipped).changed.map (·.path) ↔
    ∃ difference, (path, .changed difference) ∈ states := by
  simp only [DriftReport.ofStates, List.mem_map, List.mem_filterMap]
  constructor
  · rintro ⟨drift, ⟨⟨place, state⟩, hm, h⟩, rfl⟩
    cases state with
    | changed difference =>
      cases h
      exact ⟨difference, hm⟩
    | _ => cases h
  · rintro ⟨difference, hm⟩
    exact ⟨⟨path, difference⟩, ⟨_, hm, rfl⟩, rfl⟩

theorem eq_upToDate_of_not_hasDrift (h : (DriftReport.ofStates states skipped).hasDrift = false)
    {state : FileState} (hm : (path, state) ∈ states) : state = .upToDate := by
  obtain ⟨hmissing, hchanged⟩ : (DriftReport.ofStates states skipped).missing = [] ∧
      (DriftReport.ofStates states skipped).changed = [] := by
    simpa [DriftReport.hasDrift] using h
  cases state with
  | upToDate => rfl
  | missing =>
    have hin : path ∈ (DriftReport.ofStates states skipped).missing := mem_missing.2 hm
    simp [hmissing] at hin
  | changed difference =>
    have hin : path ∈ (DriftReport.ofStates states skipped).changed.map (·.path) :=
      mem_changed.2 ⟨difference, hm⟩
    simp [hchanged] at hin

end

theorem isUpToDate_of_check {report : DriftReport} (h : project.check tree plan = .ok report)
    (hclean : report.hasDrift = false) : project.IsUpToDate tree plan.files := by
  obtain ⟨states, hstates, h⟩ := bind_eq_ok.1 h
  obtain rfl := pure_eq_ok.1 h
  intro file hm
  obtain ⟨⟨path, state⟩, hstate, h⟩ := exists_of_mapM_eq_ok hstates file hm
  obtain ⟨found, hfound, h⟩ := bind_eq_ok.1 h
  obtain ⟨rfl, rfl⟩ := Prod.mk.inj (pure_eq_ok.1 h)
  rw [eq_upToDate_of_not_hasDrift hclean hstate] at hfound
  exact readText_of_fileState hfound

-- ---------------------------------------------------------------------------
-- Writing what is up to date
-- ---------------------------------------------------------------------------

def settledOutcome (project : Project) : WriteOutcome :=
  if project.settings.output.skipUnchanged then .unchanged else .written

theorem writeFile_of_upToDate (h : tree.readText (project.target file) = .ok file.contents) :
    ∃ after, project.writeFile tree file = (after, .ok project.settledOutcome) ∧
      tree.Agrees [] after := by
  have hmade := FileTree.makeDirectories_parent h
  have hholds := FileTree.holdsText_iff.2 h
  cases hskip : project.settings.output.skipUnchanged with
  | true =>
    have hleft : project.leavesAlone tree file = true := by
      rw [leavesAlone, hskip, hholds, Bool.and_self]
    have houtcome : project.settledOutcome = .unchanged := by
      rw [settledOutcome, if_pos hskip]
    refine ⟨tree, ?_, .refl tree⟩
    unfold writeFile
    rw [hmade, houtcome]
    exact if_pos hleft
  | false =>
    have hleft : ¬ project.leavesAlone tree file = true := by
      rw [leavesAlone, hskip, Bool.false_and]
      exact Bool.false_ne_true
    have houtcome : project.settledOutcome = .written := by
      rw [settledOutcome, hskip]
      rfl
    obtain ⟨after, hwrite, hagrees⟩ := FileTree.writeText_of_readText h
    refine ⟨after, ?_, hagrees⟩
    unfold writeFile
    rw [hmade, houtcome]
    dsimp only
    rw [if_neg hleft, hwrite]

theorem IsUpToDate.of_agrees {after : FileTree} {files : List PlannedFile}
    (h : project.IsUpToDate tree files) (hagrees : tree.Agrees [] after) :
    project.IsUpToDate after files :=
  fun file hm => hagrees.readText_eq_ok (h file hm)

theorem writeFiles_of_upToDate {files : List PlannedFile} (h : project.IsUpToDate tree files) :
    ∃ after, project.writeFiles tree files =
        (after, .ok (files.map fun file => (file.path, project.settledOutcome))) ∧
      tree.Agrees [] after := by
  induction files generalizing tree with
  | nil => exact ⟨tree, rfl, .refl tree⟩
  | cons file rest ih =>
    obtain ⟨hfile, hrest⟩ := List.forall_mem_cons.1 h
    obtain ⟨mid, hwrite, hmid⟩ := writeFile_of_upToDate hfile
    obtain ⟨after, hwrites, hafter⟩ := ih (IsUpToDate.of_agrees hrest hmid)
    refine ⟨after, ?_, hmid.trans hafter⟩
    simp [writeFiles, hwrite, hwrites, Except.map]

theorem write_of_upToDate (h : project.IsUpToDate tree plan.files) :
    ∃ after report, project.write tree plan = (after, .ok report) ∧ tree.Agrees [] after ∧
      report.skipped = plan.skipped ∧
      (project.settings.output.skipUnchanged = true →
        report.written = [] ∧ report.unchanged = plan.files.length) := by
  obtain ⟨after, hwrites, hagrees⟩ := writeFiles_of_upToDate h
  refine ⟨after, _, by rw [write, hwrites]; rfl, hagrees, rfl, fun hskip => ?_⟩
  simp [WriteReport.ofOutcomes, settledOutcome, hskip]

end ContentTypes.Project
