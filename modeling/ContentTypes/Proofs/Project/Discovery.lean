import ContentTypes.Proofs.FileTree.Children
import ContentTypes.Project.SchemaFile

/-!
# Discovery

The schemas of a project are found by what directories hold. Where two trees agree but for some files,
the same schemas are found in both away from these, in the same order, and read the same:
`schemaFiles_filter` and `readText_of_mem_schemaFiles`.
-/

namespace ContentTypes

variable {project : Project} {tree other : FileTree} {places : List Location}

def FileTree.avoids (tree : FileTree) (places : List Location) (path : Path) : Bool :=
  tree.destination path ∉ places

theorem FileTree.avoids_iff {path : Path} :
    tree.avoids places path = true ↔ tree.destination path ∉ places := by
  simp [avoids]

theorem FileTree.Agrees.avoids (h : tree.Agrees places other) :
    other.avoids places = tree.avoids places := by
  funext path
  rw [FileTree.avoids, FileTree.avoids, h.destination]

namespace Project

-- ---------------------------------------------------------------------------
-- Entities
-- ---------------------------------------------------------------------------

theorem entityNames_eq (h : tree.Agrees places other) :
    project.entityNames other = project.entityNames tree :=
  h.filterMap_childrenAt (project.settings.apiDir project.root)
    (fun name entry =>
      if entry = .directory ∧ name.text.toList.head? ≠ some '.' then some name.text else none)
    fun _ _ _ => if_neg fun hd => nomatch hd.1

theorem entityFiles_filter (h : tree.Agrees places other) :
    (project.entityFiles other).filter (tree.avoids places) =
      (project.entityFiles tree).filter (tree.avoids places) := by
  unfold entityFiles
  rw [entityNames_eq h, List.filter_filter, List.filter_filter]
  refine List.filter_congr fun path _ => ?_
  by_cases hp : tree.destination path ∈ places
  · have havoids : tree.avoids places path = false := by simpa [FileTree.avoids] using hp
    simp [havoids]
  · rw [h.fileExists_eq hp]

-- ---------------------------------------------------------------------------
-- Components
-- ---------------------------------------------------------------------------

def componentFile? (directory : Path) (category : String) (name : FileName) :
    FileEntry → Option ComponentFile
  | .directory => none
  | .file _ =>
    let path := directory.join ⟨name.text⟩
    if path.extension? = some "json" then some ⟨path, category⟩ else none

theorem categoryFiles_eq (tree : FileTree) (parent : Path) (category : String) :
    categoryFiles tree parent category =
      (tree.childrenAt (parent.join ⟨category⟩)).filterMap fun child =>
        componentFile? (parent.join ⟨category⟩) category child.1 child.2 := by
  unfold categoryFiles
  refine congrArg (List.filterMap · _) (funext fun child => ?_)
  obtain ⟨name, entry⟩ := child
  cases entry <;> rfl

theorem componentFile?_eq_some {directory : Path} {category : String} {name : FileName}
    {entry : FileEntry} {file : ComponentFile}
    (h : componentFile? directory category name entry = some file) :
    file.path = directory.join ⟨name.text⟩ ∧ ∃ contents, entry = .file contents := by
  cases entry with
  | directory => cases h
  | file contents =>
    by_cases hjson : (directory.join ⟨name.text⟩).extension? = some "json"
    · rw [componentFile?, if_pos hjson] at h
      cases h
      exact ⟨rfl, contents, rfl⟩
    · rw [componentFile?, if_neg hjson] at h
      cases h

theorem categoryFiles_filter (h : tree.Agrees places other) (parent : Path) (category : String) :
    (categoryFiles other parent category).filter (fun file => tree.avoids places file.path) =
      (categoryFiles tree parent category).filter (fun file => tree.avoids places file.path) := by
  have hchildren := h.filterMap_childrenAt (parent.join ⟨category⟩) (fun name entry =>
    (componentFile? (parent.join ⟨category⟩) category name entry).filter
      fun file => tree.avoids places file.path) fun name hp contents => by
    refine Option.filter_eq_none_iff.2 fun file hfile havoids => ?_
    rw [(componentFile?_eq_some hfile).1, FileTree.avoids_iff,
      FileTree.destination_join_name] at havoids
    exact havoids hp
  rw [categoryFiles_eq, categoryFiles_eq, List.filter_filterMap, List.filter_filterMap]
  exact hchildren

theorem categoryFiles_of_not_isDirectory {parent : Path} {name : FileName}
    (h : ¬tree.IsDirectory (name :: tree.destination parent)) :
    categoryFiles tree parent name.text = [] := by
  have hnot : ¬tree.directoryExists (parent.join ⟨name.text⟩) = true := by
    rw [FileTree.directoryExists_iff, FileTree.destination_join_name]
    exact fun hd => h hd.2
  rw [categoryFiles_eq, FileTree.childrenAt_eq, if_neg hnot]
  rfl

theorem componentFiles_eq (project : Project) (tree : FileTree) :
    project.componentFiles tree =
      (tree.childrenAt (project.settings.componentsDir project.root)).flatMap fun child =>
        categoryFiles tree (project.settings.componentsDir project.root) child.1.text := rfl

theorem componentFiles_filter (h : tree.Agrees places other) :
    (project.componentFiles other).filter (fun file => tree.avoids places file.path) =
      (project.componentFiles tree).filter (fun file => tree.avoids places file.path) := by
  have hchildren := h.flatMap_childrenAt (project.settings.componentsDir project.root)
    (fun name _ => (categoryFiles tree (project.settings.componentsDir project.root) name.text).filter
      fun file => tree.avoids places file.path) fun name hp _ => by
    rw [categoryFiles_of_not_isDirectory (h.noDirectory _ hp).1, List.filter_nil]
  rw [componentFiles_eq, componentFiles_eq, List.filter_flatMap, List.filter_flatMap]
  simp only [categoryFiles_filter h]
  exact hchildren

-- ---------------------------------------------------------------------------
-- Schemas
-- ---------------------------------------------------------------------------

/-- Away from the places at which two trees differ the same schemas are found. -/
theorem schemaFiles_filter (h : tree.Agrees places other) :
    (project.schemaFiles other).filter (fun schema => tree.avoids places schema.path) =
      (project.schemaFiles tree).filter (fun schema => tree.avoids places schema.path) := by
  have hentities : (fun schema : SchemaFile => tree.avoids places schema.path) ∘ SchemaFile.entity =
      tree.avoids places := rfl
  have hcomponents :
      (fun schema : SchemaFile => tree.avoids places schema.path) ∘ SchemaFile.component =
        fun file => tree.avoids places file.path := rfl
  simp only [schemaFiles, List.filter_append, List.filter_map, hentities, hcomponents,
    entityFiles_filter h, componentFiles_filter h]

theorem exists_of_mem_componentFiles {file : ComponentFile}
    (h : file ∈ project.componentFiles tree) :
    ∃ directory name contents, file.path = directory.join ⟨FileName.text name⟩ ∧
      tree.directoryExists directory = true ∧
      tree.get? (name :: tree.destination directory) = some (.file contents) := by
  rw [componentFiles_eq] at h
  obtain ⟨category, -, h⟩ := List.mem_flatMap.1 h
  rw [categoryFiles_eq] at h
  obtain ⟨⟨name, entry⟩, hchild, hfile⟩ := List.mem_filterMap.1 h
  obtain ⟨hpath, contents, rfl⟩ := componentFile?_eq_some hfile
  rw [FileTree.childrenAt_eq] at hchild
  split at hchild
  · rename_i hd
    exact ⟨_, name, contents, hpath, hd, FileTree.mem_children_iff.1 hchild⟩
  · exact absurd hchild List.not_mem_nil

theorem exists_file_of_mem_schemaFiles {schema : SchemaFile} (h : schema ∈ project.schemaFiles tree) :
    ∃ contents, tree.get? (tree.destination schema.path) = some (.file contents) := by
  rcases List.mem_append.1 h with h | h
  · obtain ⟨path, hm, rfl⟩ := List.mem_map.1 h
    exact (FileTree.fileExists_iff.1 (List.mem_filter.1 hm).2).2.2
  · obtain ⟨file, hm, rfl⟩ := List.mem_map.1 h
    obtain ⟨directory, name, contents, hpath, -, hget⟩ := exists_of_mem_componentFiles hm
    rw [← FileTree.destination_join_name, ← hpath] at hget
    exact ⟨contents, hget⟩

theorem fileExists_of_mem_schemaFiles {schema : SchemaFile} (h : schema ∈ project.schemaFiles tree)
    (hnul : '\x00' ∉ schema.path.text.toList) : tree.fileExists schema.path = true := by
  have hfile := exists_file_of_mem_schemaFiles h
  rcases List.mem_append.1 h with h | h
  · obtain ⟨path, hm, rfl⟩ := List.mem_map.1 h
    exact (List.mem_filter.1 hm).2
  · obtain ⟨file, hm, rfl⟩ := List.mem_map.1 h
    obtain ⟨directory, name, -, hpath, hd, -⟩ := exists_of_mem_componentFiles hm
    have hpath : (SchemaFile.component file).path = directory.join ⟨name.text⟩ := hpath
    rw [hpath] at hnul hfile ⊢
    exact FileTree.fileExists_iff.2 ⟨FileTree.reaches_join_name hd hnul,
      FileTree.endsWithSlash_join_name directory name, hfile⟩

theorem readText_of_mem_schemaFiles (h : tree.Agrees places other) {schema : SchemaFile}
    (hm : schema ∈ project.schemaFiles tree) (hp : tree.avoids places schema.path = true) :
    other.readText schema.path = tree.readText schema.path := by
  -- a component is found by its name, also by one that no path can have
  by_cases hnul : '\x00' ∈ schema.path.text.toList
  · rw [FileTree.readText_of_nul hnul, FileTree.readText_of_nul hnul]
  · obtain ⟨hr, hs, contents, hget⟩ :=
      FileTree.fileExists_iff.1 (fileExists_of_mem_schemaFiles hm hnul)
    have hentry : tree.entryAt schema.path = .ok (.file contents) :=
      FileTree.entryAt_eq_ok_iff.2 ⟨hr, hget, fun hslash => nomatch hs.symm.trans hslash⟩
    exact h.readText_eq hentry (FileTree.avoids_iff.1 hp)

end Project

end ContentTypes
