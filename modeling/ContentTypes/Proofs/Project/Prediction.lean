import ContentTypes.Proofs.FileTree.Revisiting
import ContentTypes.Proofs.Project.UpToDate
import ContentTypes.Proofs.Project.Writing

/-!
# What a check says about writing

A check looks at all files before the first is written, and writing looks at each file when its turn
comes. Until then the tree has grown, but at other places, so both see the same file as long as no path
goes up: `outcome_of_fileState`. A check thus foretells which files are written: `write_as_checked`. A
path that goes up may have led nowhere before a directory was made on its way, and then to a file.
-/

namespace ContentTypes

/-- What becomes of a file in a state if unchanged files are left alone. -/
def WriteOutcome.ofState : FileState → WriteOutcome
  | .upToDate => .unchanged
  | .missing | .changed _ => .written

theorem WriteOutcome.ofState_eq_unchanged {state : FileState} :
    ofState state = .unchanged ↔ state = .upToDate := by
  cases state <;> simp [ofState]

theorem WriteOutcome.ofState_eq_written {state : FileState} :
    ofState state = .written ↔ state ≠ .upToDate := by
  cases state <;> simp [ofState]

namespace Project

variable {project : Project} {tree mid after : FileTree} {file : PlannedFile}
  {files : List PlannedFile} {places : List Location} {states : List (Path × FileState)}

-- ---------------------------------------------------------------------------
-- One file
-- ---------------------------------------------------------------------------

theorem fileState_eq_upToDate_iff {state : FileState} (h : project.fileState tree file = .ok state) :
    state = .upToDate ↔ tree.holdsText (project.target file) file.contents = true := by
  rw [FileTree.holdsText_iff]
  constructor
  · rintro rfl
    exact readText_of_fileState h
  · intro hread
    exact Except.ok.inj (h.symm.trans (fileState_eq_upToDate hread))

theorem outcome_of_fileState {state : FileState} {outcome : WriteOutcome}
    (hskip : project.settings.output.skipUnchanged = true) (hgrows : tree.Grows places mid)
    (hup : (project.target file).NeverUp) (hplace : tree.destination (project.target file) ∉ places)
    (hstate : project.fileState tree file = .ok state)
    (hwrite : project.writeFile mid file = (after, .ok outcome)) : outcome = .ofState state := by
  obtain ⟨made, hmade, hcases⟩ := writeFile_eq_ok hwrite
  have hgrown : tree.Grows places made := by
    have hdirectories := mid.makeDirectories_grows ((project.target file).parent?.getD ⟨""⟩)
    rw [hmade] at hdirectories
    simpa using hgrows.trans hdirectories
  have hleaves : project.leavesAlone made file =
      tree.holdsText (project.target file) file.contents := by
    rw [leavesAlone, hskip, Bool.true_and, hgrown.holdsText_eq hup hplace]
  rw [hleaves] at hcases
  rcases hcases with ⟨hholds, rfl, -⟩ | ⟨hholds, rfl, -⟩
  · have hsettled := (fileState_eq_upToDate_iff hstate).2 hholds
    exact (WriteOutcome.ofState_eq_unchanged.2 hsettled).symm
  · have hdrift : state ≠ .upToDate := by simp [fileState_eq_upToDate_iff hstate, hholds]
    exact (WriteOutcome.ofState_eq_written.2 hdrift).symm

-- ---------------------------------------------------------------------------
-- All files
-- ---------------------------------------------------------------------------

theorem nodup_destinations (hnormal : ∀ file ∈ files, file.path.IsNormal)
    (hdistinct : files.Pairwise fun file other => ¬file.path.same other.path) :
    (project.destinations tree files).Nodup := by
  refine List.pairwise_map.2 (hdistinct.imp_of_mem fun hf ho hne he => ?_)
  exact hne (same_of_destination_eq (hnormal _ hf) (hnormal _ ho) he)

theorem map_fst_of_states
    (h : files.mapM (fun file => do pure (file.path, ← project.fileState tree file)) = .ok states) :
    states.map Prod.fst = files.map (·.path) := by
  induction files generalizing states with
  | nil =>
    cases h
    rfl
  | cons file files ih =>
    obtain ⟨pair, rest, hfile, hrest, rfl⟩ := mapM_cons_eq_ok.1 h
    obtain ⟨state, -, hpair⟩ := bind_eq_ok.1 hfile
    obtain rfl := pure_eq_ok.1 hpair
    simp [ih hrest]

theorem outcomes_of_states {outcomes : List (Path × WriteOutcome)}
    (hskip : project.settings.output.skipUnchanged = true) (hgrows : tree.Grows places mid)
    (hup : ∀ file ∈ files, (project.target file).NeverUp)
    (hplaces : ∀ file ∈ files, tree.destination (project.target file) ∉ places)
    (hnodup : (project.destinations tree files).Nodup)
    (hstates : files.mapM (fun file => do pure (file.path, ← project.fileState tree file)) =
      .ok states)
    (hwrite : project.writeFiles mid files = (after, .ok outcomes)) :
    outcomes = states.map fun pair => (pair.1, .ofState pair.2) := by
  -- the tree in between has grown only at places of files that are done, to which none is still to go
  induction files generalizing mid places states outcomes with
  | nil =>
    cases hstates
    cases hwrite
    rfl
  | cons file files ih =>
    obtain ⟨next, outcome, others, hfile, hfiles, rfl⟩ := writeFiles_cons_eq_ok hwrite
    obtain ⟨pair, rest, hpair, hrest, rfl⟩ := mapM_cons_eq_ok.1 hstates
    obtain ⟨state, hstate, hpair⟩ := bind_eq_ok.1 hpair
    obtain rfl := pure_eq_ok.1 hpair
    rw [List.forall_mem_cons] at hup hplaces
    rw [destinations, List.map_cons, List.nodup_cons] at hnodup
    have hgrown : tree.Grows (places ++ [tree.destination (project.target file)]) next := by
      have hwritten := project.writeFile_grows mid file
      rw [hfile, hgrows.destination] at hwritten
      exact hgrows.trans hwritten
    have hapart : ∀ other ∈ files, tree.destination (project.target other) ∉
        places ++ [tree.destination (project.target file)] := by
      intro other hm hplace
      rcases List.mem_append.1 hplace with hplace | hplace
      · exact hplaces.2 other hm hplace
      · exact hnodup.1 (List.mem_map.2 ⟨other, hm, List.mem_singleton.1 hplace⟩)
    have hfirst := outcome_of_fileState hskip hgrows hup.1 hplaces.1 hstate hfile
    simp [hfirst, ih hgrown hup.2 hapart hnodup.2 hrest hfiles]

-- ---------------------------------------------------------------------------
-- Reports
-- ---------------------------------------------------------------------------

variable {skipped : List SkippedSchema}

theorem mem_drift_iff (hnodup : (states.map Prod.fst).Nodup) {path : Path} {state : FileState}
    (hm : (path, state) ∈ states) :
    (path ∈ (DriftReport.ofStates states skipped).missing ∨
      path ∈ (DriftReport.ofStates states skipped).changed.map (·.path)) ↔ state ≠ .upToDate := by
  have hone : ∀ other, (path, other) ∈ states → other = state := fun other ho =>
    (Prod.mk.inj (List.inj_on_of_nodup_map hnodup ho hm rfl)).2
  rw [mem_missing, mem_changed]
  constructor
  · rintro (hmissing | ⟨difference, hchanged⟩)
    · simp [← hone _ hmissing]
    · simp [← hone _ hchanged]
  · intro hne
    cases state with
    | missing => exact .inl hm
    | upToDate => exact absurd rfl hne
    | changed difference => exact .inr ⟨difference, hm⟩

theorem written_of_states (hnodup : (states.map Prod.fst).Nodup) :
    (WriteReport.ofOutcomes (states.map fun pair => (pair.1, .ofState pair.2)) skipped).written =
      (states.map Prod.fst).filter fun path =>
        path ∈ (DriftReport.ofStates states skipped).missing ∨
          path ∈ (DriftReport.ofStates states skipped).changed.map (·.path) := by
  simp only [WriteReport.ofOutcomes, List.filter_map, List.map_map]
  refine congrArg (List.map Prod.fst) (List.filter_congr fun pair hm => decide_eq_decide.2 ?_)
  rw [WriteOutcome.ofState_eq_written]
  exact (mem_drift_iff hnodup hm).symm

theorem unchanged_of_states :
    (WriteReport.ofOutcomes (states.map fun pair => (pair.1, .ofState pair.2)) skipped).unchanged =
      (DriftReport.ofStates states skipped).upToDate := by
  simp [WriteReport.ofOutcomes, DriftReport.ofStates, List.countP_map, Function.comp_def,
    WriteOutcome.ofState_eq_unchanged]

/-- If unchanged files are left alone and no path goes up, writing a plan that has been checked writes
the files that the check has reported, in their order and each once, and leaves the others. -/
theorem write_as_checked {plan : Plan} {drift : DriftReport} {report : WriteReport}
    (hskip : project.settings.output.skipUnchanged = true) (hroot : project.root.NeverUp)
    (houtput : project.settings.directories.output.NeverUp)
    (hnormal : ∀ file ∈ plan.files, file.path.IsNormal)
    (hdistinct : plan.files.Pairwise fun file other => ¬file.path.same other.path)
    (hcheck : project.check tree plan = .ok drift)
    (hwrite : project.write tree plan = (after, .ok report)) :
    (report.written = (plan.files.map (·.path)).filter fun path =>
        path ∈ drift.missing ∨ path ∈ drift.changed.map (·.path)) ∧
      (report.written.Pairwise fun path other => ¬path.same other) ∧
      report.unchanged = drift.upToDate ∧ report.skipped = drift.skipped := by
  obtain ⟨states, hstates, hdrift⟩ := bind_eq_ok.1 hcheck
  obtain rfl := pure_eq_ok.1 hdrift
  obtain ⟨outcomes, hoks, rfl⟩ := write_eq_ok_iff.1 (congrArg Prod.snd hwrite)
  have hafter : (project.write tree plan).1 = after := by rw [hwrite]
  have hfiles : project.writeFiles tree plan.files = (after, .ok outcomes) := Prod.ext hafter hoks
  have hpaths := map_fst_of_states hstates
  have houtcomes := outcomes_of_states hskip (.refl tree)
    (fun file hm => (hroot.join houtput).join (hnormal file hm).goesDown.2)
    (fun _ _ => List.not_mem_nil) (nodup_destinations hnormal hdistinct) hstates hfiles
  subst houtcomes
  have hdifferent : (states.map Prod.fst).Pairwise fun path other => ¬path.same other := by
    rw [hpaths]
    exact List.pairwise_map.2 hdistinct
  have hnodup : (states.map Prod.fst).Nodup := by
    refine hdifferent.imp fun hne heq => hne ?_
    simp [heq, Path.same]
  rw [written_of_states hnodup, unchanged_of_states, ← hpaths]
  exact ⟨rfl, hdifferent.filter _, rfl, rfl⟩

/-- A file is left alone, one is written over, and one is made with the directory in which it lies. -/
theorem write_as_checked_of_three :
    let project : Project := ⟨⟨"."⟩, {}⟩
    let made := (FileTree.root.makeDirectories ⟨"types"⟩).1
    let one := (made.writeText ⟨"types/Media.ts"⟩ "media").toOption.getD made
    let tree := (one.writeText ⟨"types/Tag.ts"⟩ "old tag").toOption.getD one
    let plan : Plan := { files := [⟨⟨"components/Seo.ts"⟩, "seo", .support⟩,
      ⟨⟨"Media.ts"⟩, "media", .support⟩, ⟨⟨"Tag.ts"⟩, "tag", .support⟩] }
    let drift : DriftReport := { missing := [⟨"components/Seo.ts"⟩]
                                 changed := [⟨⟨"Tag.ts"⟩, Diff.difference "Tag.ts" "old tag" "tag"⟩]
                                 upToDate := 1
                                 skipped := [] }
    project.check tree plan = .ok drift ∧ ∃ after report,
      project.write tree plan = (after, .ok report) ∧
        report.written = [⟨"components/Seo.ts"⟩, ⟨"Tag.ts"⟩] ∧ report.unchanged = 1 ∧
        report.skipped = [] := by
  intro project made one tree plan drift
  have hcheck : project.check tree plan = .ok drift := by decide +kernel
  obtain ⟨report, hreport⟩ : ∃ report, (project.write tree plan).2 = .ok report :=
    ⟨⟨[⟨"components/Seo.ts"⟩, ⟨"Tag.ts"⟩], 1, []⟩, by decide +kernel⟩
  have hwrite : project.write tree plan = ((project.write tree plan).1, .ok report) :=
    Prod.ext rfl hreport
  obtain ⟨hwritten, -, hunchanged, hskipped⟩ := write_as_checked rfl (by decide +kernel)
    (by decide +kernel) (by decide +kernel) (by decide +kernel) hcheck hwrite
  exact ⟨hcheck, _, report, hwrite, hwritten.trans (by decide +kernel), hunchanged, hskipped⟩

/-- The way to a file leads through a directory that is made only when the file is to be written. -/
example :
    let project : Project := ⟨⟨"."⟩, { directories := { output := ⟨"new/../types"⟩ } }⟩
    let made := (FileTree.root.makeDirectories ⟨"types"⟩).1
    let tree := (made.writeText ⟨"types/Media.ts"⟩ "media").toOption.getD made
    let plan : Plan := { files := [⟨⟨"Media.ts"⟩, "media", .support⟩] }
    project.check tree plan = .ok ⟨[⟨"Media.ts"⟩], [], 0, []⟩ ∧
      (project.write tree plan).2 = .ok ⟨[], 1, []⟩ := by
  decide +kernel

end Project

end ContentTypes
