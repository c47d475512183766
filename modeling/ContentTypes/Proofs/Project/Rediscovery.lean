import ContentTypes.Proofs.FileTree.Revisiting
import ContentTypes.Proofs.Path.Ending
import ContentTypes.Proofs.Project.Discovery

/-!
# Discovery after a run

Files named like those of declarations are written, and directories are made. A new directory holds no
schemas, and a written file is none, as schemas have other names; so the same schemas are found as
before, and read the same: `schemaFiles_of_grows` and `readText_of_grows`. This needs paths to the
schemas that never go up, and other names for the included ones: `KeepsSchemas`.
-/

namespace ContentTypes

def IsDeclarationFile (name : String) : Prop :=
  ".ts".toList <:+ name.toList

instance : DecidablePred IsDeclarationFile := fun name =>
  inferInstanceAs (Decidable (".ts".toList <:+ name.toList))

variable {tree after : FileTree} {path : Path} {places : List Location} {name : FileName}

def AreDeclarationFiles (places : List Location) : Prop :=
  ∀ place ∈ places, ∃ name parent, place = name :: parent ∧ IsDeclarationFile name.text

theorem AreDeclarationFiles.not_mem (h : AreDeclarationFiles places) {parent : Location}
    (hname : ¬IsDeclarationFile name.text) : name :: parent ∉ places := by
  intro hm
  obtain ⟨other, outer, he, hother⟩ := h _ hm
  cases he
  exact hname hother

theorem not_isDeclarationFile_of_json (hname : path.fileName? = some name.text)
    (h : path.extension? = some "json") : ¬IsDeclarationFile name.text := by
  rintro ⟨front, hfront⟩
  obtain ⟨other, hother⟩ := Path.suffix_of_extension? hname h
  have hlast := congrArg List.getLast? (hfront.trans hother.symm)
  simp at hlast

namespace Project

variable {project : Project}

/-- What has to hold of a project so that writing at some places has no effect on what is found. -/
structure KeepsSchemas (project : Project) (places : List Location) : Prop where
  declarations : AreDeclarationFiles places
  apiDir : (project.settings.apiDir project.root).NeverUp
  componentsDir : (project.settings.componentsDir project.root).NeverUp
  includePaths : ∀ path ∈ project.settings.includePaths project.root, path.NeverUp
  includeNames : ∀ path ∈ project.settings.includes, ∀ name, path.fileName? = some name →
    ¬IsDeclarationFile name

-- ---------------------------------------------------------------------------
-- Entities
-- ---------------------------------------------------------------------------

def entityFile? (project : Project) (tree : FileTree) (name : FileName) (entry : FileEntry) :
    Option Path :=
  (if entry = .directory ∧ name.text.toList.head? ≠ some '.' then
    some (project.entityPath name.text) else none).filter tree.fileExists

theorem entityFiles_eq (project : Project) (tree : FileTree) :
    project.entityFiles tree =
      (tree.childrenAt (project.settings.apiDir project.root)).filterMap (fun child =>
        project.entityFile? tree child.1 child.2) ++
      (project.settings.includePaths project.root).filter tree.fileExists := by
  unfold entityFiles entityNames
  rw [List.filter_append, List.map_filterMap, List.filter_filterMap]
  congr 1
  refine List.filterMap_congr fun child _ => ?_
  obtain ⟨name, entry⟩ := child
  dsimp only [entityFile?]
  split <;> rfl

def contentTypesName : FileName := ⟨"content-types", by decide⟩

def schemaName : FileName := ⟨"schema.json", by decide⟩

theorem entityPath_eq (project : Project) (name : FileName) :
    project.entityPath name.text =
      ((((project.settings.apiDir project.root).join ⟨name.text⟩).join
        ⟨contentTypesName.text⟩).join ⟨name.text⟩).join ⟨schemaName.text⟩ := rfl

theorem destination_entityPath (project : Project) (tree : FileTree) (name : FileName) :
    tree.destination (project.entityPath name.text) =
      schemaName :: name :: contentTypesName :: name ::
        tree.destination (project.settings.apiDir project.root) := by
  simp only [entityPath_eq, FileTree.destination_join_name]

theorem neverUp_entityPath (h : (project.settings.apiDir project.root).NeverUp) (name : FileName) :
    (project.entityPath name.text).NeverUp := by
  rw [entityPath_eq]
  have hparent := (h.join (Path.neverUp_name name)).join (Path.neverUp_name contentTypesName)
  exact (hparent.join (Path.neverUp_name name)).join (Path.neverUp_name schemaName)

theorem entityPath_not_mem (h : AreDeclarationFiles places) (name : FileName) :
    tree.destination (project.entityPath name.text) ∉ places := by
  rw [destination_entityPath]
  exact h.not_mem (by decide)

theorem entityFile?_of_grows (h : tree.Grows places after) (hkeeps : project.KeepsSchemas places) :
    project.entityFile? after = project.entityFile? tree := by
  funext name entry
  unfold entityFile?
  split
  · rw [Option.filter_some, Option.filter_some,
      h.fileExists_eq (neverUp_entityPath hkeeps.apiDir name)
        (entityPath_not_mem hkeeps.declarations name)]
  · rfl

theorem entityFile?_of_none
    (h : tree.get? (name :: tree.destination (project.settings.apiDir project.root)) = none)
    (entry : FileEntry) : project.entityFile? tree name entry = none := by
  refine Option.filter_eq_none_iff.2 fun path hpath hexists => ?_
  split at hpath
  · obtain rfl := Option.some.inj hpath
    obtain ⟨-, -, contents, hfile⟩ := FileTree.fileExists_iff.1 hexists
    rw [destination_entityPath] at hfile
    have hd := FileTree.isDirectory_of_get?_cons hfile
    have houter : name :: tree.destination (project.settings.apiDir project.root) <:+
        name :: contentTypesName :: name ::
          tree.destination (project.settings.apiDir project.root) :=
      ⟨[name, contentTypesName], rfl⟩
    exact nomatch h.symm.trans (FileTree.isDirectory_of_suffix hd houter)
  · cases hpath

/-- An included file is at its own last name, and so is not written. -/
theorem include_not_mem (hkeeps : project.KeepsSchemas places)
    (hm : path ∈ project.settings.includePaths project.root) (hexists : tree.fileExists path = true) :
    tree.destination path ∉ places := by
  obtain ⟨included, hincluded, rfl⟩ := List.mem_map.1 hm
  obtain ⟨hr, hs, contents, hfile⟩ := FileTree.fileExists_iff.1 hexists
  obtain ⟨name, hname⟩ := hr.exists_name hfile
  obtain ⟨front, hsteps⟩ := List.getLast?_eq_some_iff.1 hname
  have hown := Path.fileName?_of_name (Path.steps_getLast?_of_join hs hr.nonempty hname)
  rw [FileTree.destination_of_name hsteps]
  exact hkeeps.declarations.not_mem (hkeeps.includeNames included hincluded _ hown)

theorem include_fileExists_eq (h : tree.Grows places after) (hkeeps : project.KeepsSchemas places)
    (hm : path ∈ project.settings.includePaths project.root) :
    after.fileExists path = tree.fileExists path := by
  by_cases hp : tree.destination path ∈ places
  · -- no file can be there, before or after
    have htree : ¬tree.fileExists path = true := fun hexists => include_not_mem hkeeps hm hexists hp
    have hafter : ¬after.fileExists path = true := fun hexists =>
      include_not_mem hkeeps hm hexists (h.destination path ▸ hp)
    rw [Bool.not_eq_true] at htree hafter
    rw [htree, hafter]
  · exact h.fileExists_eq (hkeeps.includePaths path hm) hp

theorem entityFiles_of_grows (h : tree.Grows places after) (hkeeps : project.KeepsSchemas places) :
    project.entityFiles after = project.entityFiles tree := by
  rw [entityFiles_eq, entityFiles_eq, entityFile?_of_grows h hkeeps]
  congr 1
  · refine h.filterMap_childrenAt hkeeps.apiDir (project.entityFile? tree)
      (fun name hnone => entityFile?_of_none hnone _) fun name _ _ contents => ?_
    unfold entityFile?
    rw [if_neg fun hd => nomatch hd.1]
    rfl
  · exact List.filter_congr fun path hm => include_fileExists_eq h hkeeps hm

-- ---------------------------------------------------------------------------
-- Components
-- ---------------------------------------------------------------------------

theorem component_not_mem (hplaces : AreDeclarationFiles places) {directory : Path}
    (hjson : (directory.join ⟨name.text⟩).extension? = some "json") (parent : Location) :
    name :: parent ∉ places := by
  have hsteps : (directory.join ⟨name.text⟩).steps = directory.steps ++ [.down name] := by
    rw [Path.steps_join _ _ name.isAbsolute_text, name.steps_text]
  have hname := Path.fileName?_of_name (List.getLast?_eq_some_iff.2 ⟨_, hsteps⟩)
  exact hplaces.not_mem (not_isDeclarationFile_of_json hname hjson)

theorem categoryFiles_of_grows (h : tree.Grows places after) (hplaces : AreDeclarationFiles places)
    {parent : Path} (hup : parent.NeverUp) (category : FileName) :
    categoryFiles after parent category.text = categoryFiles tree parent category.text := by
  rw [categoryFiles_eq, categoryFiles_eq]
  refine h.filterMap_childrenAt (hup.join (Path.neverUp_name category))
    (componentFile? (parent.join ⟨category.text⟩) category.text) (fun _ _ => rfl)
    fun name hm _ contents => ?_
  refine if_neg fun hjson => ?_
  exact component_not_mem hplaces hjson _ hm

theorem componentFiles_of_grows (h : tree.Grows places after)
    (hkeeps : project.KeepsSchemas places) :
    project.componentFiles after = project.componentFiles tree := by
  rw [componentFiles_eq, componentFiles_eq]
  have hcategories : ∀ child : FileName × FileEntry,
      categoryFiles after (project.settings.componentsDir project.root) child.1.text =
        categoryFiles tree (project.settings.componentsDir project.root) child.1.text :=
    fun child => categoryFiles_of_grows h hkeeps.declarations hkeeps.componentsDir child.1
  simp only [hcategories]
  refine h.flatMap_childrenAt hkeeps.componentsDir
    (fun name _ => categoryFiles tree (project.settings.componentsDir project.root) name.text)
    (fun name hnone => categoryFiles_of_not_isDirectory fun hd => ?_)
    fun name _ hnot _ => categoryFiles_of_not_isDirectory hnot
  exact nomatch hnone.symm.trans hd

-- ---------------------------------------------------------------------------
-- Schemas
-- ---------------------------------------------------------------------------

theorem schemaFiles_of_grows (h : tree.Grows places after) (hkeeps : project.KeepsSchemas places) :
    project.schemaFiles after = project.schemaFiles tree := by
  unfold schemaFiles
  rw [entityFiles_of_grows h hkeeps, componentFiles_of_grows h hkeeps]

theorem entity_not_mem (hkeeps : project.KeepsSchemas places)
    (hm : path ∈ project.entityFiles tree) : tree.destination path ∉ places := by
  obtain ⟨hm, hexists⟩ := List.mem_filter.1 hm
  rcases List.mem_append.1 hm with hm | hm
  · obtain ⟨text, htext, rfl⟩ := List.mem_map.1 hm
    obtain ⟨⟨name, entry⟩, -, hname⟩ := List.mem_filterMap.1 htext
    dsimp only at hname
    split at hname
    · obtain rfl := Option.some.inj hname
      exact entityPath_not_mem hkeeps.declarations name
    · cases hname
  · exact include_not_mem hkeeps hm hexists

theorem componentFile_not_mem (hkeeps : project.KeepsSchemas places) {file : ComponentFile}
    (hm : file ∈ project.componentFiles tree) : tree.destination file.path ∉ places := by
  rw [componentFiles_eq] at hm
  obtain ⟨category, -, hm⟩ := List.mem_flatMap.1 hm
  rw [categoryFiles_eq] at hm
  obtain ⟨⟨name, entry⟩, -, hfile⟩ := List.mem_filterMap.1 hm
  obtain ⟨hpath, contents, rfl⟩ := componentFile?_eq_some hfile
  rw [hpath, FileTree.destination_join_name]
  by_cases hjson : (((project.settings.componentsDir project.root).join
      ⟨category.1.text⟩).join ⟨name.text⟩).extension? = some "json"
  · exact component_not_mem hkeeps.declarations hjson _
  · exact nomatch hfile.symm.trans (if_neg hjson)

theorem readText_of_grows (h : tree.Grows places after) (hkeeps : project.KeepsSchemas places)
    {schema : SchemaFile} (hm : schema ∈ project.schemaFiles tree) :
    after.readText schema.path = tree.readText schema.path := by
  by_cases hnul : '\x00' ∈ schema.path.text.toList
  · rw [FileTree.readText_of_nul hnul, FileTree.readText_of_nul hnul]
  · refine h.readText_eq (fileExists_of_mem_schemaFiles hm hnul) ?_
    rcases List.mem_append.1 hm with hm | hm
    · obtain ⟨path, hpath, rfl⟩ := List.mem_map.1 hm
      exact entity_not_mem hkeeps hpath
    · obtain ⟨file, hfile, rfl⟩ := List.mem_map.1 hm
      exact componentFile_not_mem hkeeps hfile

end Project

end ContentTypes
