import ContentTypes.Proofs.Settings.Layers
import ContentTypes.Proofs.Toml.WrittenDocument

/-!
# The text of settings

Settings are written as a document with one member and two tables. What is read from it is a layer,
which says of each field what is in it: `said_readEntries`.
-/

namespace ContentTypes.Settings

open Setting (leaves IsLayer)

-- ---------------------------------------------------------------------------
-- Lines
-- ---------------------------------------------------------------------------

def pathMember (key : String) (path : Path) : Toml.Member :=
  ⟨key, (Toml.writeString path.text).toList, .string path.text⟩

def flagMember (key : String) (flag : Bool) : Toml.Member :=
  ⟨key, (Toml.writeBoolean flag).toList, .boolean flag⟩

def includeMember (includes : List Path) : Toml.Member :=
  ⟨"include", (Toml.writeStrings (includes.map (·.text))).toList,
    .array ((includes.map (·.text)).map .string)⟩

def tables (settings : Settings) : List (String × List Toml.Member) := [
  ("paths", [pathMember "api_dir" settings.directories.api,
    pathMember "components_dir" settings.directories.components,
    pathMember "output_dir" settings.directories.output]),
  ("output", [flagMember "write_boilerplate" settings.output.writeSupport,
    flagMember "skip_unchanged" settings.output.skipUnchanged])]

def lines (settings : Settings) : List Toml.Line :=
  Toml.documentLines [includeMember settings.includes] settings.tables

theorem toList_toToml (settings : Settings) :
    settings.toToml.toList = settings.lines.flatMap Toml.Line.text := by
  unfold toToml
  simp [lines, tables, Toml.documentLines, Toml.tableLines, pathMember, flagMember, includeMember,
    Toml.Line.text]

theorem length_includes_le (settings : Settings) :
    settings.includes.length ≤ settings.toToml.toList.length := by
  have hwritten := Toml.length_le_writeStrings (settings.includes.map (·.text))
  have htext : (Toml.writeStrings (settings.includes.map (·.text))).toList.length ≤
      settings.toToml.toList.length := by
    unfold toToml
    simp only [String.toList_append, List.length_append]
    omega
  simpa using hwritten.trans htext

variable {settings : Settings} {limit : Nat}

theorem isWritten_pathMember {key : String} (h : Toml.IsBareKey key) (path : Path) :
    (pathMember key path).IsWritten limit :=
  ⟨h, Toml.isWritten_writeString path.text⟩

theorem isWritten_flagMember {key : String} (h : Toml.IsBareKey key) (flag : Bool) :
    (flagMember key flag).IsWritten limit :=
  ⟨h, Toml.isWritten_writeBoolean flag⟩

theorem isWritten_includeMember {includes : List Path} (h : includes.length < limit) :
    (includeMember includes).IsWritten limit :=
  ⟨(by decide : Toml.IsBareKey "include"), Toml.isWritten_writeStrings (by simpa using h)⟩

theorem isWrittenTable {table : String × List Toml.Member} (h : table ∈ settings.tables) :
    Toml.IsWrittenTable limit table := by
  rcases List.mem_pair.1 h with rfl | rfl
  · refine ⟨(by decide : Toml.IsBareKey "paths"), fun member hm => ?_, ?_⟩
    · simp only [List.mem_cons, List.not_mem_nil, or_false] at hm
      rcases hm with rfl | rfl | rfl <;> exact isWritten_pathMember (by decide) _
    · simp [pathMember]
  · refine ⟨(by decide : Toml.IsBareKey "output"), fun member hm => ?_, ?_⟩
    · rcases List.mem_pair.1 hm with rfl | rfl <;> exact isWritten_flagMember (by decide) _
    · simp [flagMember]

-- ---------------------------------------------------------------------------
-- What is read from it
-- ---------------------------------------------------------------------------

theorem ofText?_toToml (settings : Settings) :
    Toml.ofText? settings.toToml = some ((includeMember settings.includes).pair ::
      settings.tables.map fun table => (table.1, .table (table.2.map Toml.Member.pair))) := by
  have hincludes := isWritten_includeMember (Nat.lt_succ_of_le settings.length_includes_le)
  refine Toml.ofText?_document settings.toList_toToml (fun member hm => ?_)
    (fun _ => isWrittenTable) (by simp [includeMember, tables])
  exact List.mem_singleton.1 hm ▸ hincludes

def readEntries (settings : Settings) (origin : Origin) : List (String × Setting) :=
  Setting.entriesOfToml origin ((includeMember settings.includes).pair ::
    settings.tables.map fun table => (table.1, .table (table.2.map Toml.Member.pair)))

theorem read?_toToml (settings : Settings) (origin : Origin) :
    Format.toml.read? origin settings.toToml = some (settings.readEntries origin) := by
  rw [Format.read?, ofText?_toToml]
  rfl

def readValue (settings : Settings) (origin : Origin) : Field → Setting
  | .includes => .sequence origin ((settings.includes.map (·.text)).map (.text origin))
  | .api => .text origin settings.directories.api.text
  | .components => .text origin settings.directories.components.text
  | .output => .text origin settings.directories.output.text
  | .writeSupport => .boolean origin settings.output.writeSupport
  | .skipUnchanged => .boolean origin settings.output.skipUnchanged

theorem itemsOfToml_eq (origin : Origin) (items : List Toml.Value) :
    Setting.itemsOfToml origin items = items.map (Setting.ofToml origin) := by
  induction items with
  | nil => rfl
  | cons item rest ih => rw [List.map_cons, Setting.itemsOfToml, ih]

theorem leaves_readEntries (settings : Settings) (origin : Origin) :
    leaves (settings.readEntries origin) =
      Field.all.map fun field => (field.path, settings.readValue origin field) := by
  simp [leaves, readEntries, includeMember, tables, Toml.Member.pair, pathMember, flagMember,
    Setting.entriesOfToml, Setting.ofToml, itemsOfToml_eq, Setting.leavesOf, Setting.inTable,
    Field.all, Field.path, Field.table?, Field.key, readValue, Function.comp_def]

theorem read?_readValue (settings : Settings) (origin : Origin) (field : Field) :
    field.read? (settings.readValue origin field) = some (settings.value field) := by
  cases field with
  | includes =>
    have htexts : (settings.includes.map (·.text)).map Path.mk = settings.includes := by
      rw [List.map_map]
      exact List.map_id _
    exact (mapM_path? origin _).trans (congrArg some htexts)
  | _ => rfl

theorem isLayer_readEntries (settings : Settings) (origin : Origin) :
    IsLayer (settings.readEntries origin) := by
  constructor
  · intro pair hp ht
    simp only [readEntries, tables, List.map_cons, List.map_nil, Setting.entriesOfToml,
      List.mem_cons, List.not_mem_nil, or_false] at hp
    rcases hp with rfl | rfl | rfl
    · cases ht
    · exact (by decide : "paths" ∈ Field.tables)
    · exact (by decide : "output" ∈ Field.tables)
  · intro leaf hl
    rw [leaves_readEntries] at hl
    obtain ⟨field, -, rfl⟩ := List.mem_map.1 hl
    exact ⟨field, rfl, by rw [read?_readValue]; rfl⟩

theorem said_readEntries (settings : Settings) (origin : Origin) (field : Field) :
    said (settings.readEntries origin) field = some (settings.value field) := by
  have hlookup : (leaves (settings.readEntries origin)).reverse.lookup field.path =
      some (settings.readValue origin field) := by
    rw [leaves_readEntries]
    cases field <;> rfl
  rw [said, hlookup, Option.bind_some, read?_readValue]

end ContentTypes.Settings
