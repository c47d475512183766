import ContentTypes.Command.Run
import ContentTypes.Proofs.Project.UpToDate

/-!
# Generating after a clean check

The commands that check and that generate load the same settings and make the same plan. When the
check ends well, every planned file is up to date, so the run that follows leaves the tree as it is.
-/

namespace ContentTypes.Command

variable {surroundings : Surroundings} {tree : FileTree} {project : Project}
  {root : Path} {config? : Option Path} {asJson withDiffs : Bool}

theorem hasDrift_of_checkOutcome {report : DriftReport}
    (h : (checkOutcome asJson withDiffs report).code = 0) : report.hasDrift = false := by
  by_contra hdrift
  rw [Bool.not_eq_false] at hdrift
  simp [checkOutcome, hdrift] at h

theorem isUpToDate_of_code (h : (check tree project asJson withDiffs).code = 0) :
    project.IsUpToDate tree (project.plan tree).files := by
  unfold check at h
  split at h
  · rename_i report hreport
    exact Project.isUpToDate_of_check hreport (hasDrift_of_checkOutcome h)
  · cases h

theorem generate_of_isUpToDate (h : project.IsUpToDate tree (project.plan tree).files) :
    let generated := generate tree project
    generated.2.code = 0 ∧ tree.Agrees [] generated.1 ∧
      (project.settings.output.skipUnchanged = true → generated.2.output =
        writeText ⟨[], (project.plan tree).files.length, (project.plan tree).skipped⟩) := by
  obtain ⟨after, report, hwrite, hagrees, hskipped, hreport⟩ := Project.write_of_upToDate h
  have hgenerate : generate tree project = (after, { code := 0, output := writeText report }) := by
    unfold generate Project.run
    rw [hwrite]
  rw [hgenerate]
  refine ⟨rfl, hagrees, fun hskip => ?_⟩
  obtain ⟨hwritten, hunchanged⟩ := hreport hskip
  rw [← hwritten, ← hunchanged, ← hskipped]

theorem exists_settings_of_check
    (h : (Invocation.perform surroundings tree ⟨root, config?, .check asJson withDiffs⟩).2.code = 0) :
    ∃ settings, Settings.load tree ⟨root, surroundings.userFile, config?, surroundings.environment⟩ =
        .ok settings ∧
      Invocation.perform surroundings tree ⟨root, config?, .check asJson withDiffs⟩ =
        (tree, check tree ⟨root, settings⟩ asJson withDiffs) := by
  cases hload : Settings.load tree
    ⟨root, surroundings.userFile, config?, surroundings.environment⟩ with
  | error error =>
    simp only [Invocation.perform, Invocation.sources, hload] at h
    cases h
  | ok settings =>
    refine ⟨settings, rfl, ?_⟩
    simp only [Invocation.perform, Invocation.sources, hload]

theorem perform_generate {settings : Settings}
    (h : Settings.load tree ⟨root, surroundings.userFile, config?, surroundings.environment⟩ =
      .ok settings) :
    Invocation.perform surroundings tree ⟨root, config?, .generate false⟩ =
      generate tree ⟨root, settings⟩ := by
  simp only [Invocation.perform, Invocation.sources, h]

/-- After a check that ends well, a run that generates ends well and changes nothing. If unchanged
files are to be skipped, it counts every planned file as unchanged. -/
theorem generate_after_clean_check {checkArguments generateArguments : List String}
    (hcheck : Invocation.ofArguments checkArguments =
      .ok ⟨root, config?, .check asJson withDiffs⟩)
    (hgenerate : Invocation.ofArguments generateArguments = .ok ⟨root, config?, .generate false⟩)
    (hclean : (run surroundings tree checkArguments).2.code = 0) :
    let generated := run surroundings (run surroundings tree checkArguments).1 generateArguments
    generated.2.code = 0 ∧
      generated.1.workingDirectory = tree.workingDirectory ∧
      (∀ location, generated.1.get? location = tree.get? location) ∧
      ∃ settings, Settings.load tree ⟨root, surroundings.userFile, config?,
          surroundings.environment⟩ = .ok settings ∧
        (settings.output.skipUnchanged = true →
          let plan := Project.plan ⟨root, settings⟩ tree
          generated.2.output = writeText ⟨[], plan.files.length, plan.skipped⟩) := by
  have hfirst : run surroundings tree checkArguments =
      Invocation.perform surroundings tree ⟨root, config?, .check asJson withDiffs⟩ := by
    rw [run, hcheck]
  rw [hfirst] at hclean
  obtain ⟨settings, hload, hperform⟩ := exists_settings_of_check hclean
  have hsecond : run surroundings (run surroundings tree checkArguments).1 generateArguments =
      generate tree ⟨root, settings⟩ := by
    rw [hfirst, hperform, run, hgenerate]
    exact perform_generate hload
  have hcode : (check tree ⟨root, settings⟩ asJson withDiffs).code = 0 := by
    rw [← hclean, hperform]
  obtain ⟨hcode, hagrees, houtput⟩ := generate_of_isUpToDate (isUpToDate_of_code hcode)
  rw [hsecond]
  refine ⟨hcode, hagrees.workingDirectory, ?_, settings, hload, houtput⟩
  intro location
  exact hagrees.get? location List.not_mem_nil

/-- A component is generated, checked and generated again. -/
theorem generate_after_clean_check_of_component :
    let surroundings : Surroundings :=
      ⟨⟨""⟩, [("typegen__output.write_boilerplate", "false")]⟩
    let made := (FileTree.root.makeDirectories ⟨"src/components/a"⟩).1
    let source := (made.writeText ⟨"src/components/a/b.json"⟩
      "\x7b\"attributes\":\x7b\x7d\x7d").toOption.getD made
    let tree := (run surroundings source ["generate"]).1
    (run surroundings tree ["check"]).2.code = 0 ∧
      let generated := run surroundings (run surroundings tree ["check"]).1 ["generate"]
      generated.2.code = 0 ∧ ∀ location, generated.1.get? location = tree.get? location := by
  dsimp only
  refine and_iff_left_of_imp (fun hclean => ?_) |>.2 (by decide +kernel)
  have hcheck : Invocation.ofArguments ["check"] = .ok ⟨⟨"."⟩, none, .check false false⟩ := by
    decide +kernel
  have hgenerate : Invocation.ofArguments ["generate"] = .ok ⟨⟨"."⟩, none, .generate false⟩ := by
    decide +kernel
  obtain ⟨hcode, -, hget, -⟩ := generate_after_clean_check hcheck hgenerate hclean
  exact ⟨hcode, hget⟩

end ContentTypes.Command
