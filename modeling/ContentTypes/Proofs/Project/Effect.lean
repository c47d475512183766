import ContentTypes.Proofs.FileTree.Receiving
import ContentTypes.Project.Output

/-!
# What writing does to a tree

A run over files writes them in order up to the first that fails, and of that one no more than
directories are left. So a tree receives the contents of the first few files, all of them if the run
succeeds: `write_receives`. A file that is left alone counts as written, as it has its contents already.
-/

namespace ContentTypes.Project

variable {project : Project} {tree mid after : FileTree} {file : PlannedFile} {files : List PlannedFile}
  {outcome : WriteOutcome} {outcomes : List (Path × WriteOutcome)} {error : FileError}

/-- What is written for files: the places where they go, and their contents. -/
def writes (project : Project) (tree : FileTree) (files : List PlannedFile) :
    List (Location × ByteArray) :=
  files.map fun file => (tree.destination (project.target file), file.contents.toUTF8)

-- ---------------------------------------------------------------------------
-- One file
-- ---------------------------------------------------------------------------

theorem writeFile_eq_ok (h : project.writeFile tree file = (after, .ok outcome)) :
    ∃ mid, tree.makeDirectories ((project.target file).parent?.getD ⟨""⟩) = (mid, .ok ()) ∧
      ((project.leavesAlone mid file = true ∧ outcome = .unchanged ∧ after = mid) ∨
        (project.leavesAlone mid file = false ∧ outcome = .written ∧
          mid.writeText (project.target file) file.contents = .ok after)) := by
  unfold writeFile at h
  generalize tree.makeDirectories ((project.target file).parent?.getD ⟨""⟩) = made at h ⊢
  obtain ⟨mid, result⟩ := made
  cases result with
  | error error => cases h
  | ok u =>
    refine ⟨mid, rfl, ?_⟩
    simp only at h
    split at h
    · rename_i hleft
      cases h
      exact .inl ⟨hleft, rfl, rfl⟩
    · rename_i hleft
      cases hw : mid.writeText (project.target file) file.contents with
      | error error => simp [hw] at h
      | ok written =>
        simp only [hw] at h
        cases h
        exact .inr ⟨by simpa using hleft, rfl, rfl⟩

theorem grows_of_writeFile_eq_error (h : project.writeFile tree file = (after, .error error)) :
    tree.Grows [] after := by
  have hmade := tree.makeDirectories_grows ((project.target file).parent?.getD ⟨""⟩)
  unfold writeFile at h
  generalize tree.makeDirectories ((project.target file).parent?.getD ⟨""⟩) = made at h hmade
  obtain ⟨mid, result⟩ := made
  cases result with
  | error error =>
    cases h
    exact hmade
  | ok u =>
    simp only at h
    split at h
    · cases h
    · cases hw : mid.writeText (project.target file) file.contents with
      | error error =>
        simp only [hw] at h
        cases h
        exact hmade
      | ok written => simp [hw] at h

theorem receives_of_writeFile (h : project.writeFile tree file = (after, .ok outcome)) :
    tree.Receives (project.writes tree [file]) after := by
  obtain ⟨mid, hmade, hcases⟩ := writeFile_eq_ok h
  have hmid : tree.Receives [] mid := by
    have hgrows := tree.makeDirectories_grows ((project.target file).parent?.getD ⟨""⟩)
    rw [hmade] at hgrows
    exact FileTree.receives_of_grows hgrows
  have hfile : mid.Receives [(mid.destination (project.target file), file.contents.toUTF8)] after := by
    rcases hcases with ⟨hleft, -, rfl⟩ | ⟨-, -, hwritten⟩
    · rw [leavesAlone, Bool.and_eq_true, FileTree.holdsText_iff] at hleft
      exact FileTree.receives_of_readText hleft.2
    · exact FileTree.receives_of_writeText hwritten
  rw [hmid.destination] at hfile
  exact hmid.trans hfile

-- ---------------------------------------------------------------------------
-- Many files
-- ---------------------------------------------------------------------------

theorem writeFiles_cons_eq_ok (h : project.writeFiles tree (file :: files) = (after, .ok outcomes)) :
    ∃ mid outcome rest, project.writeFile tree file = (mid, .ok outcome) ∧
      project.writeFiles mid files = (after, .ok rest) ∧ outcomes = (file.path, outcome) :: rest := by
  rw [writeFiles] at h
  generalize project.writeFile tree file = first at h ⊢
  obtain ⟨mid, outcome⟩ := first
  cases outcome with
  | error error => cases h
  | ok outcome =>
    cases hr : project.writeFiles mid files with
    | mk last rest =>
      simp only [hr] at h
      cases rest with
      | error error => cases h
      | ok rest =>
        cases h
        exact ⟨mid, outcome, rest, rfl, hr, rfl⟩

theorem writeFiles_cons_eq_error (h : project.writeFiles tree (file :: files) = (after, .error error)) :
    project.writeFile tree file = (after, .error error) ∨
      ∃ mid outcome, project.writeFile tree file = (mid, .ok outcome) ∧
        project.writeFiles mid files = (after, .error error) := by
  rw [writeFiles] at h
  generalize project.writeFile tree file = first at h ⊢
  obtain ⟨mid, outcome⟩ := first
  cases outcome with
  | error error =>
    cases h
    exact .inl rfl
  | ok outcome =>
    cases hr : project.writeFiles mid files with
    | mk last rest =>
      simp only [hr] at h
      cases rest with
      | error error =>
        cases h
        exact .inr ⟨mid, outcome, rfl, hr⟩
      | ok rest => cases h

theorem map_fst_of_writeFiles (h : project.writeFiles tree files = (after, .ok outcomes)) :
    outcomes.map Prod.fst = files.map (·.path) := by
  induction files generalizing tree outcomes with
  | nil =>
    cases h
    rfl
  | cons file files ih =>
    obtain ⟨mid, outcome, rest, -, hrest, rfl⟩ := writeFiles_cons_eq_ok h
    simp [ih hrest]

theorem receives_cons (h : tree.Receives (project.writes tree [file]) mid)
    (h' : mid.Receives (project.writes mid files) after) :
    tree.Receives (project.writes tree (file :: files)) after := by
  have hwrites : project.writes mid files = project.writes tree files := by
    simp [writes, h.destination]
  rw [hwrites] at h'
  exact h.trans h'

theorem receives_of_writeFiles (h : project.writeFiles tree files = (after, .ok outcomes)) :
    tree.Receives (project.writes tree files) after := by
  induction files generalizing tree outcomes with
  | nil =>
    cases h
    exact FileTree.receives_of_grows (.refl after)
  | cons file files ih =>
    obtain ⟨mid, outcome, rest, hfile, hrest, -⟩ := writeFiles_cons_eq_ok h
    exact receives_cons (receives_of_writeFile hfile) (ih hrest)

theorem receives_of_writeFiles_eq_error (h : project.writeFiles tree files = (after, .error error)) :
    ∃ count < files.length, tree.Receives (project.writes tree (files.take count)) after := by
  induction files generalizing tree with
  | nil => cases h
  | cons file files ih =>
    rcases writeFiles_cons_eq_error h with hfile | ⟨mid, outcome, hfile, hrest⟩
    · exact ⟨0, by simp, FileTree.receives_of_grows (grows_of_writeFile_eq_error hfile)⟩
    · obtain ⟨count, hcount, hreceives⟩ := ih hrest
      refine ⟨count + 1, by simpa using hcount, ?_⟩
      exact receives_cons (receives_of_writeFile hfile) hreceives

theorem writeFiles_receives (project : Project) (tree : FileTree) (files : List PlannedFile) :
    ∃ count ≤ files.length,
      (count = files.length ↔ ∃ outcomes, (project.writeFiles tree files).2 = .ok outcomes) ∧
      tree.Receives (project.writes tree (files.take count)) (project.writeFiles tree files).1 := by
  cases h : project.writeFiles tree files with
  | mk after result =>
    cases result with
    | ok outcomes =>
      refine ⟨files.length, Nat.le_refl _, by simp, ?_⟩
      simpa using receives_of_writeFiles h
    | error error =>
      obtain ⟨count, hcount, hreceives⟩ := receives_of_writeFiles_eq_error h
      exact ⟨count, Nat.le_of_lt hcount, by simp [Nat.ne_of_lt hcount], hreceives⟩

-- ---------------------------------------------------------------------------
-- Reports
-- ---------------------------------------------------------------------------

theorem length_written_add_unchanged (outcomes : List (Path × WriteOutcome))
    (skipped : List SkippedSchema) :
    (WriteReport.ofOutcomes outcomes skipped).written.length +
      (WriteReport.ofOutcomes outcomes skipped).unchanged = outcomes.length := by
  have hcount := List.length_eq_countP_add_countP (fun o : Path × WriteOutcome => o.2 = .written)
    (l := outcomes)
  have hother : ∀ o : Path × WriteOutcome, (¬o.2 = .written) ↔ o.2 = .unchanged := by
    rintro ⟨path, outcome⟩
    cases outcome <;> simp
  simpa [WriteReport.ofOutcomes, List.countP_eq_length_filter, hother] using hcount.symm

theorem written_sublist (outcomes : List (Path × WriteOutcome)) (skipped : List SkippedSchema) :
    (WriteReport.ofOutcomes outcomes skipped).written.Sublist (outcomes.map Prod.fst) :=
  List.filter_sublist.map Prod.fst

theorem write_eq_ok_iff {plan : Plan} {report : WriteReport} :
    (project.write tree plan).2 = .ok report ↔
      ∃ outcomes, (project.writeFiles tree plan.files).2 = .ok outcomes ∧
        WriteReport.ofOutcomes outcomes plan.skipped = report := by
  simp only [write]
  cases (project.writeFiles tree plan.files).2 <;> simp [Except.map]

/-- Writing a plan writes some of its files from the beginning, and all if and only if it succeeds. At
the place of such a file are the contents of the last of them that goes there, and all else is as before
but for new directories. A report that is made counts every file once and lists those written in
order. -/
theorem write_receives (project : Project) (tree : FileTree) (plan : Plan) :
    ∃ count ≤ plan.files.length,
      (count = plan.files.length ↔ ∃ report, (project.write tree plan).2 = .ok report) ∧
      tree.Receives (project.writes tree (plan.files.take count)) (project.write tree plan).1 ∧
      (∀ location contents, tree.get? location = some (.file contents) →
        ∃ current, (project.write tree plan).1.get? location = some (.file current)) ∧
      ∀ report, (project.write tree plan).2 = .ok report →
        report.written.length + report.unchanged = plan.files.length ∧
        report.written.Sublist (plan.files.map (·.path)) ∧ report.skipped = plan.skipped := by
  obtain ⟨count, hle, hcount, hreceives⟩ := project.writeFiles_receives tree plan.files
  refine ⟨count, hle, ?_, hreceives, fun location contents h => hreceives.exists_file h, ?_⟩
  · rw [hcount]
    constructor
    · rintro ⟨outcomes, h⟩
      exact ⟨_, write_eq_ok_iff.2 ⟨outcomes, h, rfl⟩⟩
    · rintro ⟨report, h⟩
      obtain ⟨outcomes, h, -⟩ := write_eq_ok_iff.1 h
      exact ⟨outcomes, h⟩
  · intro report h
    obtain ⟨outcomes, houtcomes, rfl⟩ := write_eq_ok_iff.1 h
    have hpaths := map_fst_of_writeFiles (Prod.ext rfl houtcomes)
    refine ⟨?_, hpaths ▸ written_sublist outcomes plan.skipped, rfl⟩
    rw [length_written_add_unchanged, ← List.length_map Prod.fst, hpaths, List.length_map]

/-- The third file would lie in the first two, which go to one place, so the fourth is not written. -/
example :
    let project : Project := ⟨⟨"."⟩, {}⟩
    let plan : Plan := { files := [
      ⟨⟨"Tag.ts"⟩, "first", .support⟩, ⟨⟨"./Tag.ts"⟩, "second", .support⟩,
      ⟨⟨"Tag.ts/Tag.ts"⟩, "third", .support⟩, ⟨⟨"User.ts"⟩, "fourth", .support⟩] }
    let (after, result) := project.write .root plan
    result = .error .alreadyExists ∧ after.readText ⟨"types/Tag.ts"⟩ = .ok "second" ∧
      after.pathExists ⟨"types/User.ts"⟩ = false := by
  decide +kernel

end ContentTypes.Project
