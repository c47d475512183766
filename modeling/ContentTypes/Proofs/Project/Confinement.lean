import ContentTypes.Proofs.Declaration.Closed
import ContentTypes.Proofs.Declaration.EntityImports
import ContentTypes.Proofs.Declaration.FileName
import ContentTypes.Proofs.Project.Planning
import ContentTypes.Proofs.Project.Writing
import Mathlib.Data.List.Pairwise

/-!
# Where planned files lie

A planned file is a support file, that of a component, or that of an entity, and only the last may lie
outside the output directory: `goesDown_iff_of_mem_plan`. A plan tells two paths apart by their
components, and these differ for one place exactly if one path begins with a dot: `plan_locations`.
-/

namespace ContentTypes

open Declaration (GeneratedUnit ContentKind NameLeadsOut pascalCase)

variable {tree : FileTree} {path : Path} {unit : GeneratedUnit}

-- ---------------------------------------------------------------------------
-- Paths of units
-- ---------------------------------------------------------------------------

def entityName? (tree : FileTree) (path : Path) : Option String := do
  let source ← (tree.readText path).toOption
  let document ← (Schema.Document.ofText source).toOption
  document.singularName?

theorem ofFile_eq_ok {kind : ContentKind} (h : GeneratedUnit.ofFile tree kind path = .ok unit) :
    ∃ source, tree.readText path = .ok source ∧
      match kind with
      | .entity => GeneratedUnit.ofEntity source = .ok unit
      | .component => GeneratedUnit.ofComponent source (path.stem?.getD "") = .ok unit := by
  obtain ⟨source, hsource, h⟩ := bind_eq_ok.1 h
  refine ⟨source, mapError_eq_ok.1 hsource, ?_⟩
  cases kind <;> exact mapError_eq_ok.1 h

theorem entity_of_ofFile (h : GeneratedUnit.ofFile tree .entity path = .ok unit) :
    ∃ name, entityName? tree path = some name ∧ unit.kind = .entity ∧ unit.name = pascalCase name := by
  obtain ⟨source, hsource, h⟩ := ofFile_eq_ok h
  obtain ⟨document, name, hdocument, hname, rfl⟩ := GeneratedUnit.ofEntity_eq_ok.1 h
  refine ⟨name, ?_, by simp, by simp⟩
  simp [entityName?, hsource, hdocument, hname, Except.toOption]

theorem component_of_ofFile (h : GeneratedUnit.ofFile tree .component path = .ok unit) :
    unit.kind = .component ∧ unit.name = pascalCase (path.stem?.getD "") := by
  obtain ⟨source, -, h⟩ := ofFile_eq_ok h
  obtain ⟨document, -, rfl⟩ := GeneratedUnit.ofComponent_eq_ok.1 h
  exact ⟨by simp, by simp⟩

theorem exists_entityName (h : GeneratedUnit.ofFile tree .entity path = .ok unit) :
    ∃ name, entityName? tree path = some name ∧ unit.path = ⟨pascalCase name ++ ".ts"⟩ := by
  obtain ⟨name, hentity, hkind, hname⟩ := entity_of_ofFile h
  exact ⟨name, hentity, by simp [GeneratedUnit.path, GeneratedUnit.fileName, hkind, hname]⟩

theorem exists_componentName (h : GeneratedUnit.ofFile tree .component path = .ok unit) :
    ∃ name : String, '/' ∉ name.toList ∧
      unit.path = (⟨"components"⟩ : Path).join ⟨name ++ ".ts"⟩ := by
  obtain ⟨hkind, hname⟩ := component_of_ofFile h
  refine ⟨pascalCase (path.stem?.getD ""), ?_, ?_⟩
  · exact Declaration.slash_not_mem_pascalCase path.slash_not_mem_stem
  · simp [GeneratedUnit.path, GeneratedUnit.fileName, hkind, hname]

namespace Project

variable {project : Project} {file : PlannedFile}

-- ---------------------------------------------------------------------------
-- Planned files
-- ---------------------------------------------------------------------------

theorem mem_plan_files (h : file ∈ (project.plan tree).files) :
    file ∈ project.supportFiles ∨ ∃ schema : SchemaFile, schema.planned? tree = some file := by
  have hfollows := project.plan_follows tree
  have hfile := (hfollows.file?_eq file.path).symm.trans (hfollows.distinct.file?_of_mem h)
  rcases Option.or_eq_some_iff.1 hfile with hschema | ⟨-, hsupport⟩
  · obtain ⟨schema, -, hplanned⟩ := Option.bind_eq_some_iff.1 hschema
    exact .inr ⟨schema, hplanned⟩
  · exact .inl (List.mem_of_find?_eq_some hsupport)

theorem support_goesDown (h : file ∈ project.supportFiles) :
    file.path.GoesDown ∧ file.path.names ≠ [] ∧ file.source = .support := by
  have hall : ∀ file ∈ Declaration.SupportFile.all.map PlannedFile.ofSupport,
      file.path.GoesDown ∧ file.path.names ≠ [] ∧ file.source = .support := by
    decide +kernel
  unfold supportFiles at h
  split at h
  · exact hall file h
  · exact absurd h List.not_mem_nil

theorem goesDown_component {component : ComponentFile}
    (h : SchemaFile.planned? tree (.component component) = some file) :
    file.path.GoesDown ∧ file.path.names ≠ [] := by
  obtain ⟨unit, hunit, hpath⟩ := SchemaFile.exists_unit_of_planned? h
  obtain ⟨name, hslash, hname⟩ := exists_componentName hunit
  rw [hpath, hname]
  exact ⟨Declaration.goesDown_componentPath hslash, Declaration.names_componentPath_ne_nil hslash⟩

theorem goesDown_entity_iff (h : SchemaFile.planned? tree (.entity path) = some file) :
    ∃ name, entityName? tree path = some name ∧ (file.path.GoesDown ↔ ¬NameLeadsOut name) ∧
      file.path.names ≠ [] := by
  obtain ⟨unit, hunit, hpath⟩ := SchemaFile.exists_unit_of_planned? h
  obtain ⟨name, hname, hunitPath⟩ := exists_entityName hunit
  refine ⟨name, hname, ?_, ?_⟩
  · rw [hpath, hunitPath, Declaration.goesDown_pascalCase_iff]
  · rw [hpath, hunitPath]
    exact Declaration.names_fileName_ne_nil _

theorem goesDown_iff_of_mem_plan (h : file ∈ (project.plan tree).files) :
    file.path.GoesDown ↔ ∀ path name, file.source = .schema .entity path →
      entityName? tree path = some name → ¬NameLeadsOut name := by
  rcases mem_plan_files h with hsupport | ⟨schema, hplanned⟩
  · obtain ⟨hdown, -, hsource⟩ := support_goesDown hsupport
    exact iff_of_true hdown fun path name he => nomatch hsource.symm.trans he
  · have hsource := SchemaFile.source_of_planned? hplanned
    cases schema with
    | entity path =>
      obtain ⟨name, hname, hiff, -⟩ := goesDown_entity_iff hplanned
      rw [hiff]
      constructor
      · intro hstays path' name' he hname'
        cases hsource.symm.trans he
        cases hname.symm.trans hname'
        exact hstays
      · exact fun hall => hall path name hsource hname
    | component component =>
      exact iff_of_true (goesDown_component hplanned).1 fun path name he =>
        nomatch hsource.symm.trans he

theorem names_ne_nil_of_mem_plan (h : file ∈ (project.plan tree).files) : file.path.names ≠ [] := by
  rcases mem_plan_files h with hsupport | ⟨schema, hplanned⟩
  · exact (support_goesDown hsupport).2.1
  · cases schema with
    | entity path =>
      obtain ⟨-, -, -, hnames⟩ := goesDown_entity_iff hplanned
      exact hnames
    | component component => exact (goesDown_component hplanned).2

-- ---------------------------------------------------------------------------
-- Places of planned files
-- ---------------------------------------------------------------------------

theorem pairwise_undotted_iff {plan : Plan} (hd : plan.Distinct) :
    plan.files.Pairwise (fun file other => file.path.undotted ≠ other.path.undotted) ↔
      ∀ file ∈ plan.files, ∀ other ∈ plan.files,
        file.path.components ≠ .current :: other.path.components := by
  constructor
  · intro h file hf other ho hdot
    have hne : file ≠ other := by
      rintro rfl
      exact absurd (congrArg List.length hdot) (by simp)
    have hsymm : Std.Symm fun file other : PlannedFile =>
        file.path.undotted ≠ other.path.undotted := ⟨fun _ _ => Ne.symm⟩
    exact h.forall hf ho hne (Path.undotted_eq_iff.2 (.inr (.inl hdot)))
  · -- the plan is distinct by components, so only the dot at the beginning is left to differ
    intro h
    refine hd.imp_of_mem fun hf ho hne he => ?_
    rcases Path.undotted_eq_iff.1 he with hsame | hdot | hdot
    · exact hne (Path.same_iff.2 hsame)
    · exact h _ hf _ ho hdot
    · exact h _ ho _ hf hdot

theorem nodup_destinations_iff {files : List PlannedFile}
    (h : ∀ file ∈ files, file.path.GoesDown) :
    (project.destinations tree files).Nodup ↔
      files.Pairwise fun file other => file.path.undotted ≠ other.path.undotted := by
  rw [destinations, List.Nodup, List.pairwise_map]
  refine List.Pairwise.iff_of_mem fun hf ho => not_congr ?_
  rw [destination_target _ _ (h _ hf), destination_target _ _ (h _ ho),
    (h _ hf).undotted_eq_iff (h _ ho), List.append_cancel_right_eq, List.reverse_inj]

theorem write_cases {plan : Plan} (h : ∀ file ∈ plan.files, file.path.GoesDown ∧ file.path.names ≠ [])
    (location : Location) :
    (project.write tree plan).1.get? location = tree.get? location ∨
      (tree.get? location = none ∧ (project.write tree plan).1.IsDirectory location) ∨
      ∃ names, names ≠ [] ∧
        location = names ++ tree.destination (project.settings.outputDir project.root) := by
  have hgrows := writeFiles_grows project tree plan.files
  have hwrite : (project.write tree plan).1 = (project.writeFiles tree plan.files).1 := rfl
  rw [hwrite]
  rcases hgrows.get? location with hsame | hmade | ⟨hm, -⟩
  · exact .inl hsame
  · exact .inr (.inl hmade)
  · obtain ⟨file, hf, rfl⟩ := List.mem_map.1 hm
    obtain ⟨hdown, hnames⟩ := h file hf
    exact .inr (.inr ⟨_, by simpa using hnames, destination_target project tree hdown⟩)

/-- A planned file goes down from the output directory unless it is that of an entity whose name leads
out. Planned files are at different places unless one has the path of another behind a dot. If all go
down, these places are below the output directory, and no other file is written. -/
theorem plan_locations (project : Project) (tree : FileTree) :
    let plan := project.plan tree
    (∀ file ∈ plan.files, file.path.GoesDown ↔
      ∀ path name, file.source = .schema .entity path → entityName? tree path = some name →
        ¬NameLeadsOut name) ∧
    (plan.files.Pairwise (fun file other => file.path.undotted ≠ other.path.undotted) ↔
      ∀ file ∈ plan.files, ∀ other ∈ plan.files,
        file.path.components ≠ .current :: other.path.components) ∧
    ((∀ file ∈ plan.files, file.path.GoesDown) →
      ((project.destinations tree plan.files).Nodup ↔
        plan.files.Pairwise fun file other => file.path.undotted ≠ other.path.undotted) ∧
      ∀ location, (project.write tree plan).1.get? location = tree.get? location ∨
        (tree.get? location = none ∧ (project.write tree plan).1.IsDirectory location) ∨
        ∃ names, names ≠ [] ∧
          location = names ++ tree.destination (project.settings.outputDir project.root)) := by
  have hfollows := project.plan_follows tree
  refine ⟨fun file hm => goesDown_iff_of_mem_plan hm, pairwise_undotted_iff hfollows.distinct, ?_⟩
  intro hdown
  exact ⟨nodup_destinations_iff hdown,
    write_cases fun file hm => ⟨hdown file hm, names_ne_nil_of_mem_plan hm⟩⟩

/-- A tag and a tag behind a dot are both planned, for one place. -/
example :
    let project : Project := ⟨⟨""⟩, {
      includes := [⟨"a"⟩, ⟨"b"⟩]
      output := { writeSupport := false } }⟩
    let source (name : String) :=
      "\x7b\"info\":\x7b\"singularName\":\"" ++ name ++ "\"\x7d,\"attributes\":\x7b\x7d\x7d"
    let first := (FileTree.root.writeText ⟨"a"⟩ (source "tag")).toOption.getD .root
    let tree := (first.writeText ⟨"b"⟩ (source "./Tag")).toOption.getD first
    let plan := project.plan tree
    plan.files.map (·.path.text) = ["Tag.ts", "./Tag.ts"] ∧ plan.skipped = [] ∧
      ¬(project.destinations tree plan.files).Nodup := by
  decide +kernel

end Project

end ContentTypes
