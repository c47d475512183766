import ContentTypes.Proofs.Path.Ending
import ContentTypes.Proofs.Project.Rediscovery
import ContentTypes.Proofs.Text.ByteOrder

/-!
# The layout of schemas

Which files of a tree are schemas, said by places alone, and the order in which they are taken: that of
the bytes of their names (`schemaFiles_layout`).
-/

namespace ContentTypes

open Text (bytes)

/-- Whether a path can hold a name. No path has a NUL. -/
def FileName.IsPlain (name : FileName) : Prop :=
  '\x00' ∉ name.text.toList

theorem Path.mem_text_join_name {path : Path} {name : FileName} {c : Char} (hc : c ≠ '/') :
    c ∈ (path.join ⟨name.text⟩).text.toList ↔ c ∈ path.text.toList ∨ c ∈ name.text.toList := by
  rw [mem_text_iff_pieces hc, mem_text_iff_pieces hc, pieces_join _ _ name.isAbsolute_text,
    name.pieces_text]
  simp [or_and_right, exists_or]

namespace FileTree

variable {tree : FileTree} {path : Path} {name : FileName} {location : Location}

-- ---------------------------------------------------------------------------
-- What is at a name in a directory
-- ---------------------------------------------------------------------------

theorem nul_not_mem_join_name (h : tree.directoryExists path = true) :
    '\x00' ∉ (path.join ⟨name.text⟩).text.toList ↔ name.IsPlain := by
  rw [Path.mem_text_join_name (by decide), not_or, FileName.IsPlain]
  exact and_iff_right (directoryExists_iff.1 h).1.noNul

theorem directoryExists_join_name (h : tree.directoryExists path = true) :
    tree.directoryExists (path.join ⟨name.text⟩) = true ↔
      name.IsPlain ∧ tree.IsDirectory (name :: tree.destination path) := by
  rw [directoryExists_iff, destination_join_name, ← nul_not_mem_join_name h]
  exact and_congr_left fun _ => ⟨(·.noNul), reaches_join_name h⟩

theorem fileExists_join_name (h : tree.directoryExists path = true) :
    tree.fileExists (path.join ⟨name.text⟩) = true ↔ name.IsPlain ∧
      ∃ contents, tree.get? (name :: tree.destination path) = some (.file contents) := by
  rw [fileExists_iff, destination_join_name, ← nul_not_mem_join_name h,
    and_iff_right (endsWithSlash_join_name path name)]
  exact and_congr_left fun _ => ⟨(·.noNul), reaches_join_name h⟩

theorem pairwise_bytes_children : (tree.children location).Pairwise fun child other =>
    bytes child.1.text < bytes other.1.text := by
  have hnodup : (tree.childNames location).Nodup := nodup_childNames
  refine (List.pairwise_map.1 (pairwise_childNames.and hnodup)).imp ?_
  rintro ⟨⟨text, _⟩, entry⟩ ⟨⟨other, _⟩, entry'⟩ ⟨hle, hne⟩
  rw [← Text.lt_iff_bytes_lt]
  refine String.not_le.1 fun hge => hne ?_
  obtain rfl : text = other := String.le_antisymm hle hge
  rfl

theorem pairwise_bytes_childrenAt (tree : FileTree) (path : Path) :
    (tree.childrenAt path).Pairwise fun child other => bytes child.1.text < bytes other.1.text := by
  rw [childrenAt_eq]
  split
  · exact pairwise_bytes_children
  · exact List.Pairwise.nil

theorem mem_childrenAt_iff {entry : FileEntry} : (name, entry) ∈ tree.childrenAt path ↔
    tree.directoryExists path = true ∧ tree.get? (name :: tree.destination path) = some entry := by
  rw [childrenAt_eq]
  split
  · rename_i h
    rw [mem_children_iff, and_iff_right h]
  · rename_i h
    exact iff_of_false List.not_mem_nil fun hd => h hd.1

end FileTree

namespace Project

variable {project : Project} {tree : FileTree} {name category : FileName}

-- ---------------------------------------------------------------------------
-- Entities
-- ---------------------------------------------------------------------------

/-- Whether a name is that of an entity: of a directory that is not hidden, in the directory of entities,
with the schema in its own directory of content types. Without a directory of entities there are none. -/
structure IsEntity (project : Project) (tree : FileTree) (name : FileName) : Prop where
  base : tree.directoryExists (project.settings.apiDir project.root) = true
  directory :
    tree.IsDirectory (name :: tree.destination (project.settings.apiDir project.root))
  visible : name.text.toList.head? ≠ some '.'
  plain : name.IsPlain
  schema : ∃ contents, tree.get? (schemaName :: name :: contentTypesName :: name ::
    tree.destination (project.settings.apiDir project.root)) = some (.file contents)

theorem isPlain_contentTypesName : contentTypesName.IsPlain := by
  unfold FileName.IsPlain
  decide

theorem isPlain_schemaName : schemaName.IsPlain := by
  unfold FileName.IsPlain
  decide

theorem fileExists_entityPath
    (h : tree.directoryExists (project.settings.apiDir project.root) = true) :
    tree.fileExists (project.entityPath name.text) = true ↔ name.IsPlain ∧
      ∃ contents, tree.get? (schemaName :: name :: contentTypesName :: name ::
        tree.destination (project.settings.apiDir project.root)) = some (.file contents) := by
  rw [entityPath_eq]
  generalize project.settings.apiDir project.root = base at h ⊢
  constructor
  · intro hfile
    obtain ⟨hreaches, -, hget⟩ := FileTree.fileExists_iff.1 hfile
    simp only [FileTree.destination_join_name] at hget
    have hnul := hreaches.noNul
    simp only [Path.mem_text_join_name (c := '\x00') (by decide), not_or] at hnul
    exact ⟨hnul.1.2, hget⟩
  · rintro ⟨hplain, contents, hget⟩
    have hthird := FileTree.isDirectory_of_get?_cons hget
    have hsecond := FileTree.isDirectory_of_get?_cons hthird
    have hfirst := FileTree.isDirectory_of_get?_cons hsecond
    have hname := (FileTree.directoryExists_join_name h).2 ⟨hplain, hfirst⟩
    have htypes := (FileTree.directoryExists_join_name hname).2
      ⟨isPlain_contentTypesName, by rwa [FileTree.destination_join_name]⟩
    have hinner := (FileTree.directoryExists_join_name htypes).2
      ⟨hplain, by simpa only [FileTree.destination_join_name] using hthird⟩
    refine (FileTree.fileExists_join_name hinner).2 ⟨isPlain_schemaName, contents, ?_⟩
    simpa only [FileTree.destination_join_name] using hget

def entities (project : Project) (tree : FileTree) : List FileName :=
  ((tree.childrenAt (project.settings.apiDir project.root)).filter fun (name, entry) =>
    (entry = .directory ∧ name.text.toList.head? ≠ some '.') ∧
      tree.fileExists (project.entityPath name.text)).map Prod.fst

theorem mem_entities : name ∈ project.entities tree ↔ project.IsEntity tree name := by
  simp only [entities, List.mem_map, List.mem_filter, decide_eq_true_eq, Prod.exists,
    FileTree.mem_childrenAt_iff]
  constructor
  · rintro ⟨_, _, ⟨⟨hbase, hget⟩, ⟨rfl, hvisible⟩, hfile⟩, rfl⟩
    obtain ⟨hplain, hschema⟩ := (fileExists_entityPath hbase).1 hfile
    exact ⟨hbase, hget, hvisible, hplain, hschema⟩
  · rintro ⟨hbase, hdirectory, hvisible, hplain, hschema⟩
    exact ⟨name, .directory, ⟨⟨hbase, hdirectory⟩, ⟨rfl, hvisible⟩,
      (fileExists_entityPath hbase).2 ⟨hplain, hschema⟩⟩, rfl⟩

theorem pairwise_entities : (project.entities tree).Pairwise fun name other =>
    bytes name.text < bytes other.text :=
  List.pairwise_map.2 ((tree.pairwise_bytes_childrenAt _).filter _)

theorem entityFiles_eq_map : project.entityFiles tree =
    (project.entities tree).map (fun name => project.entityPath name.text)
      ++ (project.settings.includePaths project.root).filter tree.fileExists := by
  rw [entityFiles, List.filter_append]
  congr 1
  unfold entityNames entities
  generalize tree.childrenAt (project.settings.apiDir project.root) = children
  induction children with
  | nil => rfl
  | cons child children ih =>
    obtain ⟨name, entry⟩ := child
    by_cases hvisible : entry = .directory ∧ name.text.toList.head? ≠ some '.'
    · by_cases hfile : tree.fileExists (project.entityPath name.text) = true
      · simpa [hvisible, hfile] using ih
      · simpa [hvisible, hfile] using ih
    · simpa [hvisible] using ih

-- ---------------------------------------------------------------------------
-- Components
-- ---------------------------------------------------------------------------

/-- Whether two names are those of a category and of a component in it: of a file with the extension
`json`, in a directory that lies in the directory of components. -/
structure IsComponent (project : Project) (tree : FileTree) (category name : FileName) : Prop where
  base : tree.directoryExists (project.settings.componentsDir project.root) = true
  plain : category.IsPlain
  file : ∃ contents, tree.get? (name :: category ::
    tree.destination (project.settings.componentsDir project.root)) = some (.file contents)
  extension : ∃ stem : String, stem ≠ "" ∧ name.text = stem ++ ".json"

def componentPath (project : Project) (category name : FileName) : Path :=
  ((project.settings.componentsDir project.root).join ⟨category.text⟩).join ⟨name.text⟩

def components (project : Project) (tree : FileTree) : List (FileName × FileName) :=
  (tree.childrenAt (project.settings.componentsDir project.root)).flatMap fun (category, _) =>
    ((tree.childrenAt ((project.settings.componentsDir project.root).join ⟨category.text⟩)).filter
      fun (name, entry) => entry ≠ .directory ∧
        (project.componentPath category name).extension? = some "json").map
          fun (name, _) => (category, name)

theorem extension?_componentPath : (project.componentPath category name).extension? = some "json" ↔
    ∃ stem : String, stem ≠ "" ∧ name.text = stem ++ ".json" := by
  have hdot : '.' ∉ "json".toList := by decide
  rw [componentPath, Path.extension?_join_name hdot]
  simp only [String.append_assoc]
  rfl

theorem mem_components :
    (category, name) ∈ project.components tree ↔ project.IsComponent tree category name := by
  simp only [components, List.mem_flatMap, List.mem_map, List.mem_filter, decide_eq_true_eq,
    Prod.exists, Prod.mk.injEq, FileTree.mem_childrenAt_iff, extension?_componentPath]
  constructor
  · rintro ⟨_, _, ⟨hbase, -⟩, _, entry, ⟨⟨hdirectory, hget⟩, hfile, hextension⟩, rfl, rfl⟩
    rw [FileTree.destination_join_name] at hget
    refine ⟨hbase, ((FileTree.directoryExists_join_name hbase).1 hdirectory).1, ?_, hextension⟩
    cases entry with
    | directory => exact absurd rfl hfile
    | file contents => exact ⟨contents, hget⟩
  · rintro ⟨hbase, hplain, ⟨contents, hget⟩, hextension⟩
    have hcategory := FileTree.isDirectory_of_get?_cons hget
    have hdirectory := (FileTree.directoryExists_join_name hbase).2 ⟨hplain, hcategory⟩
    exact ⟨category, .directory, ⟨hbase, hcategory⟩, name, .file contents,
      ⟨⟨hdirectory, by rwa [FileTree.destination_join_name]⟩, by simp, hextension⟩, rfl, rfl⟩

def IsBefore (component other : FileName × FileName) : Prop :=
  bytes component.1.text < bytes other.1.text ∨
    component.1 = other.1 ∧ bytes component.2.text < bytes other.2.text

theorem pairwise_components : (project.components tree).Pairwise IsBefore := by
  refine List.pairwise_flatMap.2 ⟨fun child _ => ?_, ?_⟩
  · refine List.pairwise_map.2 (((tree.pairwise_bytes_childrenAt _).filter _).imp ?_)
    exact fun h => .inr ⟨rfl, h⟩
  · refine (tree.pairwise_bytes_childrenAt _).imp fun h component hc other ho => ?_
    obtain ⟨_, -, rfl⟩ := List.mem_map.1 hc
    obtain ⟨_, -, rfl⟩ := List.mem_map.1 ho
    exact .inl h

theorem componentFile?_file {contents : ByteArray} :
    componentFile? ((project.settings.componentsDir project.root).join ⟨category.text⟩) category.text name
        (.file contents) =
      if (project.componentPath category name).extension? = some "json" then
        some ⟨project.componentPath category name, category.text⟩
      else none := rfl

theorem componentFiles_eq_map : project.componentFiles tree =
    (project.components tree).map fun (category, name) =>
      ⟨project.componentPath category name, category.text⟩ := by
  rw [componentFiles_eq, components, List.map_flatMap]
  refine List.flatMap_congr fun child _ => ?_
  rw [categoryFiles_eq, List.map_map]
  generalize tree.childrenAt _ = children
  induction children with
  | nil => rfl
  | cons found children ih =>
    obtain ⟨name, entry⟩ := found
    cases entry with
    | directory => simpa [componentFile?] using ih
    | file contents =>
      by_cases hjson : (project.componentPath child.1 name).extension? = some "json"
      · simpa [componentFile?_file, hjson] using ih
      · simpa [componentFile?_file, hjson] using ih

-- ---------------------------------------------------------------------------
-- All schemas
-- ---------------------------------------------------------------------------

/-- The schemas of a project are those of its entities, in the order of the bytes of their names, then the
included files that are there, in the order of the settings and as often as they stand there, and then
those of its components, in the order of the bytes of their categories and of their names. -/
theorem schemaFiles_layout (project : Project) (tree : FileTree) :
    ∃ (entities : List FileName) (components : List (FileName × FileName)),
      project.entityFiles tree = entities.map (fun name => project.entityPath name.text)
        ++ (project.settings.includePaths project.root).filter tree.fileExists ∧
      project.componentFiles tree = components.map (fun (category, name) =>
        ⟨project.componentPath category name, category.text⟩) ∧
      project.schemaFiles tree = (project.entityFiles tree).map .entity
        ++ (project.componentFiles tree).map .component ∧
      (∀ name, name ∈ entities ↔ project.IsEntity tree name) ∧
      entities.Pairwise (fun name other => bytes name.text < bytes other.text) ∧
      (∀ category name, (category, name) ∈ components ↔ project.IsComponent tree category name) ∧
      components.Pairwise IsBefore :=
  ⟨project.entities tree, project.components tree, entityFiles_eq_map, componentFiles_eq_map, rfl,
    fun _ => mem_entities, pairwise_entities, fun _ _ => mem_components, pairwise_components⟩

end Project

end ContentTypes
