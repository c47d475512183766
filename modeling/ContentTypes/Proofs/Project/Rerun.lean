import ContentTypes.Proofs.Project.Confinement
import ContentTypes.Proofs.Project.Rediscovery

/-!
# Running again

The paths of all planned files end with `.ts`, so a run, also one that fails, changes no other file and
removes none: `file_of_run`. As it leaves the schemas where they were found, the plan after a run is the
plan before it: `run_keeps_inputs`.
-/

namespace ContentTypes

open Declaration (GeneratedUnit directoryParts exists_splitOn_append)

variable {tree : FileTree} {path : Path}

-- ---------------------------------------------------------------------------
-- Names of planned files
-- ---------------------------------------------------------------------------

theorem exists_name_of_ending (h : ".ts".toList <:+ path.text.toList) :
    ∃ name front, path.steps = front ++ [.down name] ∧ IsDeclarationFile name.text := by
  obtain ⟨text, htext⟩ := h
  obtain ⟨last, hparts⟩ := exists_splitOn_append (show '/' ∉ ".ts".toList by decide) text
  have hpieces : path.pieces = ((directoryParts text).filter (· ≠ [])).map String.ofList ++
      [String.ofList (last ++ ".ts".toList)] := by
    rw [Path.pieces, ← htext, hparts, List.filter_append, List.map_append]
    simp
  have hmem : String.ofList (last ++ ".ts".toList) ∈ path.pieces := by simp [hpieces]
  have hlast : ∀ piece : String, piece.toList.getLast? ≠ some 's' →
      String.ofList (last ++ ".ts".toList) ≠ piece := by
    rintro piece hpiece rfl
    simp at hpiece
  have hname := Path.isFileName_of_mem_pieces hmem (hlast "." (by decide)) (hlast ".." (by decide))
  let name : FileName := ⟨_, hname⟩
  have hsteps := congrArg (List.filterMap Step.ofPiece) hpieces
  rw [List.filterMap_append, List.filterMap_cons_some (Path.ofPiece_text name)] at hsteps
  exact ⟨name, _, hsteps, last, by simp [name]⟩

theorem Declaration.GeneratedUnit.path_ending (unit : GeneratedUnit) :
    ".ts".toList <:+ unit.path.text.toList := by
  have hname : ".ts".toList <:+ unit.fileName.toList := by
    rw [fileName, String.toList_append]
    exact List.suffix_append _ _
  unfold path
  split
  · exact hname
  · exact hname.trans (Path.text_suffix_join _ _)

namespace Project

variable {project : Project} {file : PlannedFile}

theorem path_ending_of_mem_plan (h : file ∈ (project.plan tree).files) :
    ".ts".toList <:+ file.path.text.toList := by
  rcases mem_plan_files h with hsupport | ⟨schema, hplanned⟩
  · have hall : ∀ file ∈ Declaration.SupportFile.all.map PlannedFile.ofSupport,
        ".ts".toList <:+ file.path.text.toList := by
      decide +kernel
    unfold supportFiles at hsupport
    split at hsupport
    · exact hall file hsupport
    · exact absurd hsupport List.not_mem_nil
  · obtain ⟨unit, -, hpath⟩ := SchemaFile.exists_unit_of_planned? hplanned
    rw [hpath]
    exact unit.path_ending

theorem areDeclarationFiles_destinations (project : Project) (tree : FileTree) :
    AreDeclarationFiles (project.destinations tree (project.plan tree).files) := by
  intro place hm
  obtain ⟨file, hfile, rfl⟩ := List.mem_map.1 hm
  have hending := (path_ending_of_mem_plan hfile).trans
    (Path.text_suffix_join (project.settings.outputDir project.root) file.path)
  obtain ⟨name, front, hsteps, hname⟩ := exists_name_of_ending hending
  exact ⟨name, _, FileTree.destination_of_name hsteps, hname⟩

-- ---------------------------------------------------------------------------
-- Runs
-- ---------------------------------------------------------------------------

theorem run_grows (project : Project) (tree : FileTree) :
    tree.Grows (project.destinations tree (project.plan tree).files) (project.run tree).1 := by
  have hwrite : ∀ plan, (project.write tree plan).1 = (project.writeFiles tree plan.files).1 :=
    fun _ => rfl
  rw [run, hwrite]
  exact writeFiles_grows project tree (project.plan tree).files

theorem file_of_run {name : FileName} {parent : Location} {contents : ByteArray}
    (h : tree.get? (name :: parent) = some (.file contents)) :
    ∃ current, (project.run tree).1.get? (name :: parent) = some (.file current) ∧
      (¬IsDeclarationFile name.text → current = contents) := by
  rcases (project.run_grows tree).get? (name :: parent) with
    hsame | ⟨hnone, -⟩ | ⟨hm, -, current, hwritten⟩
  · exact ⟨contents, hsame.trans h, fun _ => rfl⟩
  · exact nomatch h.symm.trans hnone
  · refine ⟨current, hwritten, fun hname => ?_⟩
    exact absurd hm ((areDeclarationFiles_destinations project tree).not_mem hname)

theorem keepsSchemas_of_neverUp {places : List Location} (hplaces : AreDeclarationFiles places)
    (hroot : project.root.NeverUp) (hapi : project.settings.directories.api.NeverUp)
    (hcomponents : project.settings.directories.components.NeverUp)
    (hincludes : ∀ path ∈ project.settings.includes, path.NeverUp)
    (hnames : ∀ path ∈ project.settings.includes, ∀ name, path.fileName? = some name →
      ¬IsDeclarationFile name) : project.KeepsSchemas places where
  declarations := hplaces
  apiDir := hroot.join hapi
  componentsDir := hroot.join hcomponents
  includePaths path hm := by
    obtain ⟨included, hincluded, rfl⟩ := List.mem_map.1 hm
    exact hroot.join (hincludes included hincluded)
  includeNames := hnames

theorem plan_of_grows {after : FileTree} {places : List Location} (h : tree.Grows places after)
    (hkeeps : project.KeepsSchemas places) : project.plan after = project.plan tree := by
  rw [plan_eq, plan_eq, schemaFiles_of_grows h hkeeps]
  refine List.foldl_ext _ _ _ fun plan schema hm => ?_
  unfold Plan.addFile GeneratedUnit.ofFile
  rw [readText_of_grows h hkeeps hm]

/-- A run, also one that fails, removes no file and changes none but declaration files. If no path to
the schemas goes up, and none that is included is named like a declaration file, the plan stays the
same. -/
theorem run_keeps_inputs (project : Project) (tree : FileTree) :
    (∀ name parent contents, tree.get? (name :: parent) = some (.file contents) →
      ∃ current, (project.run tree).1.get? (name :: parent) = some (.file current) ∧
        (¬IsDeclarationFile name.text → current = contents)) ∧
    (project.root.NeverUp → project.settings.directories.api.NeverUp →
      project.settings.directories.components.NeverUp →
      (∀ path ∈ project.settings.includes, path.NeverUp) →
      (∀ path ∈ project.settings.includes, ∀ name, path.fileName? = some name →
        ¬IsDeclarationFile name) →
      project.plan (project.run tree).1 = project.plan tree) := by
  refine ⟨fun name parent contents h => file_of_run h, ?_⟩
  intro hroot hapi hcomponents hincludes hnames
  have hplaces := areDeclarationFiles_destinations project tree
  exact plan_of_grows (project.run_grows tree)
    (keepsSchemas_of_neverUp hplaces hroot hapi hcomponents hincludes hnames)

/-- Declarations go between the directories of the entities, where a component lies as well. -/
theorem run_keeps_inputs_among_schemas :
    let project : Project := ⟨⟨"."⟩, {
      includes := [⟨"tag.json"⟩]
      directories := { components := ⟨"src/api"⟩, output := ⟨"src/api"⟩ }
      output := { writeSupport := false } }⟩
    let made := (FileTree.root.makeDirectories ⟨"src/api/a"⟩).1
    let embedded := (made.writeText ⟨"src/api/a/b.json"⟩
      "\x7b\"attributes\":\x7b\x7d\x7d").toOption.getD made
    let tree := (embedded.writeText ⟨"tag.json"⟩
      "\x7b\"info\":\x7b\"singularName\":\"a/tag\"\x7d,\"attributes\":\x7b\x7d\x7d").toOption.getD
        embedded
    (project.root.NeverUp ∧ project.settings.directories.api.NeverUp ∧
      project.settings.directories.components.NeverUp ∧
      (∀ path ∈ project.settings.includes, path.NeverUp) ∧
      ∀ path ∈ project.settings.includes, ∀ name, path.fileName? = some name →
        ¬IsDeclarationFile name) ∧
    (project.run tree).2 = .ok ⟨[⟨"A/tag.ts"⟩, ⟨"components/B.ts"⟩], 0, []⟩ ∧
    project.plan (project.run tree).1 = project.plan tree := by
  dsimp only
  have hnames : ∀ path ∈ [(⟨"tag.json"⟩ : Path)], ∀ name, path.fileName? = some name →
      ¬IsDeclarationFile name := by
    intro path hm name hname
    obtain rfl := List.mem_singleton.1 hm
    have hfile : (⟨"tag.json"⟩ : Path).fileName? = some "tag.json" := by decide +kernel
    obtain rfl := Option.some.inj (hfile.symm.trans hname)
    decide
  refine ⟨⟨by decide +kernel, by decide +kernel, by decide +kernel, by decide +kernel, hnames⟩,
    by decide +kernel, ?_⟩
  exact (run_keeps_inputs _ _).2 (by decide +kernel) (by decide +kernel) (by decide +kernel)
    (by decide +kernel) hnames

end Project

end ContentTypes
