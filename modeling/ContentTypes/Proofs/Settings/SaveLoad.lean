import ContentTypes.Proofs.FileTree.Agreement
import ContentTypes.Proofs.FileTree.Children
import ContentTypes.Proofs.FileTree.Parents
import ContentTypes.Proofs.Path.Ending
import ContentTypes.Proofs.Settings.Written

/-!
# Saving and loading

Settings that are saved in the root of a project and loaded again are the same, if there is no other
source: `load_saved`. The user's file may be the saved one itself, which is then read twice.
-/

namespace ContentTypes

variable {path : Path}

-- ---------------------------------------------------------------------------
-- Names of files
-- ---------------------------------------------------------------------------

theorem Path.fileName?_of_addExtension? {extension : String} {other : Path}
    (hext : extension ≠ "") (hslash : '/' ∉ extension.toList)
    (h : path.addExtension? extension = some other) :
    ∃ name, other.fileName? = some (name ++ "." ++ extension) := by
  obtain ⟨name, hname, h⟩ := Option.bind_eq_some_iff.1 h
  obtain ⟨parent, -, h⟩ := Option.bind_eq_some_iff.1 h
  cases h
  obtain ⟨hne, -, -, hfree⟩ := isFileName_of_fileName? hname
  have hpos : ∀ {text : String}, text ≠ "" → 0 < text.toList.length := fun hne =>
    List.length_pos_iff.2 (mt String.toList_eq_nil_iff.1 hne)
  have hlong : 3 ≤ (name ++ "." ++ extension).toList.length := by
    have hname := hpos hne
    have hext := hpos hext
    have hdot : ".".toList.length = 1 := rfl
    simp only [String.toList_append, List.length_append]
    omega
  have hne : ∀ text : String, text.toList.length < 3 → name ++ "." ++ extension ≠ text :=
    fun text hshort he => Nat.not_le_of_lt hshort (he ▸ hlong)
  have hvalid : IsFileName (name ++ "." ++ extension) :=
    ⟨hne _ (by decide), hne _ (by decide), hne _ (by decide), by simp [hfree, hslash]⟩
  have hlast : (parent.join ⟨name ++ "." ++ extension⟩).steps.getLast? =
      some (.down ⟨_, hvalid⟩) := by
    rw [steps_join _ _ (FileName.isAbsolute_text ⟨_, hvalid⟩), FileName.steps_text ⟨_, hvalid⟩]
    exact List.getLast?_concat
  exact ⟨name, fileName?_of_name hlast⟩

namespace FileTree

variable {tree after : FileTree}

theorem fileName?_of_fileExists (h : tree.fileExists path = true) {name : FileName}
    {parent : Location} (hpath : tree.destination path = name :: parent) :
    path.fileName? = some name.text := by
  obtain ⟨hr, -, contents, hfile⟩ := fileExists_iff.1 h
  obtain ⟨other, hother⟩ := hr.exists_name hfile
  obtain ⟨front, hsteps⟩ := List.getLast?_eq_some_iff.1 hother
  rw [destination_of_name hsteps] at hpath
  obtain ⟨rfl, -⟩ := List.cons.inj hpath
  exact Path.fileName?_of_name hother

end FileTree

namespace Settings

open Setting (IsLayer)

variable {tree after : FileTree} {sources : Sources} {settings : Settings} {name : Path}

-- ---------------------------------------------------------------------------
-- Files in which settings were saved
-- ---------------------------------------------------------------------------

def fileName : FileName := ⟨"typegen.toml", by decide⟩

theorem ofPath?_of_fileName (h : path.fileName? = some fileName.text) :
    Format.ofPath? path = some .toml := by
  have hextension : path.extension? = some "toml" := by
    rw [Path.extension?, h]
    decide +kernel
  simp [Format.ofPath?, hextension, Format.extension]

theorem eq_toml_of_mem_withExtensions {format : Format} (h : (path, format) ∈ withExtensions name)
    (hname : path.fileName? = some fileName.text) : format = .toml := by
  obtain ⟨other, -, h⟩ := List.mem_filterMap.1 h
  obtain ⟨found, hfound, he⟩ := Option.map_eq_some_iff.1 h
  obtain ⟨rfl, rfl⟩ := Prod.mk.inj he
  cases other with
  | toml => rfl
  | json =>
    obtain ⟨stem, hstem⟩ := Path.fileName?_of_addExtension? (by decide) (by decide) hfound
    have htext : stem ++ "." ++ "json" = fileName.text := Option.some.inj (hstem.symm.trans hname)
    have hend : "json".toList <:+ fileName.text.toList := by
      rw [← htext]
      exact ⟨(stem ++ ".").toList, by simp⟩
    exact absurd hend (by decide)

theorem findFile_of_fileName (h : tree.fileExists path = true)
    (hname : path.fileName? = some fileName.text) : findFile tree path = .ok (path, .toml) := by
  rw [findFile, if_pos h, ofPath?_of_fileName hname]

theorem findFile_of_not_fileExists (h : tree.fileExists name = false) :
    (∃ found ∈ withExtensions name, tree.fileExists found.1 = true ∧
      findFile tree name = .ok found) ∨ findFile tree name = .error (.notFound name) := by
  unfold findFile
  rw [if_neg (h ▸ Bool.false_ne_true)]
  split
  · rename_i found hfound
    have hexists := List.find?_some hfound
    exact .inl ⟨found, List.mem_of_find?_eq_some hfound, hexists, rfl⟩
  · exact .inr rfl

theorem readOptionalFile_of_findFile (hfind : findFile tree name = .ok (path, .toml))
    (hread : tree.readText path = .ok settings.toToml) :
    readOptionalFile tree name = .ok (settings.readEntries (some (tree.relativeText path))) := by
  have hfile : readFile tree name = .ok (settings.readEntries (some (tree.relativeText path))) := by
    have htext : (tree.readText path).mapError LoadError.unreadable = .ok settings.toToml :=
      mapError_eq_ok.2 hread
    refine bind_eq_ok.2 ⟨_, hfind, bind_eq_ok.2 ⟨_, htext, ?_⟩⟩
    simp only [read?_toToml]
    rfl
  rw [readOptionalFile, hfile]

/-- A source that says what is in settings, or nothing. -/
def Repeats (settings : Settings) (source : List (String × Setting)) : Prop :=
  source = [] ∨ ∃ origin, source = settings.readEntries origin

theorem readOptionalFile_repeats
    (h : ∀ path ∈ name :: (withExtensions name).map Prod.fst, tree.fileExists path = true →
      path.fileName? = some fileName.text ∧ tree.readText path = .ok settings.toToml) :
    ∃ source, readOptionalFile tree name = .ok source ∧ settings.Repeats source := by
  cases hexists : tree.fileExists name with
  | true =>
    obtain ⟨hname, hread⟩ := h name List.mem_cons_self hexists
    have hfind := findFile_of_fileName hexists hname
    exact ⟨_, readOptionalFile_of_findFile hfind hread, .inr ⟨_, rfl⟩⟩
  | false =>
    rcases findFile_of_not_fileExists hexists with ⟨found, hmem, hexists, hfind⟩ | hmissing
    · obtain ⟨path, format⟩ := found
      obtain ⟨hname, hread⟩ :=
        h path (List.mem_cons_of_mem _ (List.mem_map.2 ⟨_, hmem, rfl⟩)) hexists
      obtain rfl := eq_toml_of_mem_withExtensions hmem hname
      exact ⟨_, readOptionalFile_of_findFile hfind hread, .inr ⟨_, rfl⟩⟩
    · exact ⟨[], readOptionalFile_of_missing hmissing, .inl rfl⟩

-- ---------------------------------------------------------------------------
-- Loading what was saved
-- ---------------------------------------------------------------------------

def Sources.otherFiles (sources : Sources) : List Path :=
  [sources.root.join ⟨".typegen.toml"⟩, sources.userFile, sources.root.join ⟨"types/Config.json"⟩]

/-- There is no source but the file in the root of the project: what is found under another name, be it
with an extension added, is that file. -/
structure Sources.HasNoOthers (sources : Sources) (tree : FileTree) : Prop where
  files : ∀ name ∈ sources.otherFiles, ∀ path ∈ name :: (withExtensions name).map Prod.fst,
    tree.fileExists path = true →
      tree.destination path = tree.destination (sources.root.join ⟨"typegen.toml"⟩)
  explicit : sources.explicit? = none
  environment : ∀ pair ∈ sources.environment, variableKey? pair.1 = none

section
variable {root : Path}

theorem readText_of_destination
    (hsave : tree.writeText (root.join ⟨"typegen.toml"⟩) settings.toToml = .ok after)
    (hexists : after.fileExists path = true)
    (hpath : tree.destination path = tree.destination (root.join ⟨"typegen.toml"⟩)) :
    path.fileName? = some fileName.text ∧ after.readText path = .ok settings.toToml := by
  obtain ⟨hagrees, hwritten⟩ := FileTree.agrees_of_writeBytes hsave
  rw [← hpath, ← hagrees.destination] at hwritten
  obtain ⟨hr, hs, -⟩ := FileTree.fileExists_iff.1 hexists
  refine ⟨?_, FileTree.readText_eq_ok_iff.2 ⟨hr, hs, _, hwritten, FileTree.fromUTF8?_toUTF8 _⟩⟩
  exact FileTree.fileName?_of_fileExists hexists
    ((hagrees.destination path).trans
      (hpath.trans (FileTree.destination_join_name tree root fileName)))

theorem fileExists_saved
    (hsave : tree.writeText (root.join ⟨"typegen.toml"⟩) settings.toToml = .ok after) :
    after.fileExists (root.join ⟨"typegen.toml"⟩) = true := by
  obtain ⟨hr, hs, contents, hfile, -⟩ :=
    FileTree.readText_eq_ok_iff.1 (FileTree.readText_writeText hsave)
  exact FileTree.fileExists_iff.2 ⟨hr, hs, contents, hfile⟩

theorem readOptionalFile_saved
    (hsave : tree.writeText (root.join ⟨"typegen.toml"⟩) settings.toToml = .ok after) :
    ∃ origin, readOptionalFile after (root.join ⟨"typegen.toml"⟩) =
      .ok (settings.readEntries origin) := by
  have hexists := fileExists_saved hsave
  obtain ⟨hname, hread⟩ := readText_of_destination hsave hexists rfl
  exact ⟨_, readOptionalFile_of_findFile (findFile_of_fileName hexists hname) hread⟩

end

theorem readOptionalFile_other (h : sources.HasNoOthers tree)
    (hsave : tree.writeText (sources.root.join ⟨"typegen.toml"⟩) settings.toToml = .ok after)
    (hname : name ∈ sources.otherFiles) :
    ∃ source, readOptionalFile after name = .ok source ∧ settings.Repeats source := by
  refine readOptionalFile_repeats fun path hpath hexists => readText_of_destination hsave hexists ?_
  by_contra hne
  obtain ⟨hagrees, -⟩ := FileTree.agrees_of_writeBytes hsave
  rw [hagrees.fileExists_eq fun hm => hne (List.mem_singleton.1 hm)] at hexists
  exact hne (h.files name hname path hpath hexists)

theorem mem_optionalFiles (h : name ∈ sources.optionalFiles tree) :
    name = sources.root.join ⟨"typegen.toml"⟩ ∨ name ∈ sources.otherFiles := by
  simp only [Sources.optionalFiles, List.mem_append, List.mem_cons, List.mem_ite_nil_right,
    List.not_mem_nil, or_false] at h
  simp only [Sources.otherFiles, List.mem_cons, List.not_mem_nil, or_false]
  rcases h with ((rfl | rfl) | ⟨-, rfl⟩) | rfl
  · exact .inl rfl
  · exact .inr (.inl rfl)
  · exact .inr (.inr (.inl rfl))
  · exact .inr (.inr (.inr rfl))

theorem lastSaid_of_forall {layers : List Layer} {layer : Layer} (hmem : layer ∈ layers)
    (hall : ∀ other ∈ layers, other = layer ∨ other = fun _ => none) : lastSaid layers = layer := by
  funext field
  rw [lastSaid]
  cases hfound : layers.reverse.findSome? (· field) with
  | none => exact (List.findSome?_eq_none_iff.1 hfound layer (List.mem_reverse.2 hmem)).symm
  | some value =>
    obtain ⟨other, hother, hvalue⟩ := List.exists_of_findSome?_eq_some hfound
    rcases hall other (List.mem_reverse.1 hother) with rfl | rfl
    · exact hvalue.symm
    · cases hvalue

theorem Repeats.isLayer {source : List (String × Setting)} (h : settings.Repeats source) :
    IsLayer source := by
  rcases h with rfl | ⟨origin, rfl⟩
  · exact isLayer_nil
  · exact settings.isLayer_readEntries origin

theorem Repeats.said_eq {source : List (String × Setting)} (h : settings.Repeats source) :
    said source = (fun field => some (settings.value field)) ∨ said source = fun _ => none := by
  rcases h with rfl | ⟨origin, rfl⟩
  · exact .inr rfl
  · exact .inl (funext (settings.said_readEntries origin))

theorem ofSetting_mergeSources_of_repeats {layers : List (List (String × Setting))}
    (hall : ∀ source ∈ layers, settings.Repeats source)
    (hmem : ∃ origin, settings.readEntries origin ∈ layers) :
    ofSetting (Setting.mergeSources layers) = .ok settings := by
  obtain ⟨loaded, hloaded, hvalues⟩ :=
    ofSetting_mergeSources fun source hs => (hall source hs).isLayer
  obtain ⟨origin, hmem⟩ := hmem
  have hlast : lastSaid (layers.map said) = fun field => some (settings.value field) := by
    refine lastSaid_of_forall ?_ fun layer hl => ?_
    · rw [← funext (settings.said_readEntries origin)]
      exact List.mem_map_of_mem hmem
    · obtain ⟨source, hs, rfl⟩ := List.mem_map.1 hl
      exact (hall source hs).said_eq
  rw [hlast] at hvalues
  rw [hloaded, ext_value (hvalues ·)]

theorem mapM_readOptionalFile (h : sources.HasNoOthers tree)
    (hsave : tree.writeText (sources.root.join ⟨"typegen.toml"⟩) settings.toToml = .ok after) :
    ∃ optional, (sources.optionalFiles after).mapM (readOptionalFile after) = .ok optional ∧
      (∀ source ∈ optional, settings.Repeats source) ∧
      ∃ origin, settings.readEntries origin ∈ optional := by
  obtain ⟨origin, hfirst⟩ := readOptionalFile_saved hsave
  have hrepeats : ∀ name ∈ sources.optionalFiles after,
      ∃ source, readOptionalFile after name = .ok source ∧ settings.Repeats source := by
    intro name hname
    rcases mem_optionalFiles hname with rfl | hother
    · exact ⟨_, hfirst, .inr ⟨origin, rfl⟩⟩
    · exact readOptionalFile_other h hsave hother
  obtain ⟨optional, hoptional, hall⟩ := exists_mapM_eq_ok hrepeats
  obtain ⟨source, hs, hsource⟩ := exists_of_mapM_eq_ok hoptional _ List.mem_cons_self
  obtain rfl := Except.ok.inj (hfirst.symm.trans hsource)
  exact ⟨optional, hoptional, hall, origin, hs⟩

/-- Settings that were saved in the root of a project are loaded from there, whatever they are. -/
theorem load_saved (settings : Settings) (h : sources.HasNoOthers tree)
    (hsave : tree.writeText (sources.root.join ⟨"typegen.toml"⟩) settings.toToml = .ok after) :
    load after sources = .ok settings := by
  obtain ⟨optional, hoptional, hrepeats, origin, hmem⟩ := mapM_readOptionalFile h hsave
  have henvironment : ofEnvironment sources.environment = [] :=
    List.filterMap_eq_nil_iff.2 fun pair hp => by simp [h.environment pair hp]
  have hsources : sources.read after = .ok (optional ++ [] ++ [[]]) := by
    rw [Sources.read, hoptional, h.explicit, henvironment]
    rfl
  refine bind_eq_ok.2 ⟨_, hsources, ofSetting_mergeSources_of_repeats (fun source hs => ?_) ?_⟩
  · rw [List.append_nil] at hs
    rcases List.mem_append.1 hs with hs | hs
    · exact hrepeats source hs
    · exact .inl (List.mem_singleton.1 hs)
  · exact ⟨origin, by simp [hmem]⟩

def settledTree : FileTree :=
  (FileTree.root.writeText ⟨"typegen.toml"⟩ "include = [\"old.json\"]\n").toOption.getD .root

def settledSources : Sources where
  root := ⟨"."⟩
  userFile := ⟨"/typegen.toml"⟩
  environment := [("TYPEGEN_ROOT", "x")]

/-- Paths that are written in each of the forms of a string. -/
def quotedSettings : Settings where
  includes := [⟨"it's.json"⟩, ⟨"a\\b.json"⟩, ⟨"a\n\"b\".json"⟩, ⟨"a\n\\\"\"\".json"⟩]
  directories := { api := ⟨""⟩, output := ⟨"\x01\"'\"\n\"\"\"'''"⟩ }
  output := { skipUnchanged := false }

theorem load_saved_quotes :
    settledSources.HasNoOthers settledTree ∧
      ∃ after, settledTree.writeText ⟨"./typegen.toml"⟩ quotedSettings.toToml = .ok after ∧
        load after settledSources = .ok quotedSettings := by
  have hfiles : ∀ name ∈ settledSources.otherFiles,
      ∀ path ∈ name :: (withExtensions name).map Prod.fst, settledTree.fileExists path = true →
        settledTree.destination path =
          settledTree.destination (settledSources.root.join ⟨"typegen.toml"⟩) := by
    decide +kernel
  have henvironment : ∀ pair ∈ settledSources.environment, variableKey? pair.1 = none := by
    decide +kernel
  have hothers : settledSources.HasNoOthers settledTree := ⟨hfiles, rfl, henvironment⟩
  have hroot : settledSources.root.join ⟨"typegen.toml"⟩ = ⟨"./typegen.toml"⟩ := by decide +kernel
  have hexists : settledTree.fileExists ⟨"./typegen.toml"⟩ = true := by decide +kernel
  obtain ⟨after, hsave, -⟩ := FileTree.agrees_writeBytes hexists quotedSettings.toToml.toUTF8
  exact ⟨hothers, after, hsave, load_saved quotedSettings hothers (hroot ▸ hsave)⟩

end Settings

end ContentTypes
