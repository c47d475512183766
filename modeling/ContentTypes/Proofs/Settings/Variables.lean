import ContentTypes.Proofs.Path.Join
import ContentTypes.Proofs.Settings.Guessing

/-!
# Settings of a single variable

A directory is made of whatever its variable is taken for. A boolean or a number is written in its own
form, so that `007` becomes `7`. A list of includes is not made of such a value. What a single variable
comes to when nothing else is said is `load_variable`.
-/

namespace ContentTypes.Settings

open Setting (isTable setEntry setEntries setEntry_of_isTable applySource mergeSources)

-- ---------------------------------------------------------------------------
-- One value
-- ---------------------------------------------------------------------------

variable {text : String} {scalar : Scalar} {value : Setting}

theorem decodePath_setting (scalar : Scalar) (origin : Origin) (key : String) :
    decodePath key (scalar.setting origin) = .ok ⟨scalar.written⟩ := by
  cases scalar <;> rfl

theorem decodePaths_setting (scalar : Scalar) (origin : Origin) (key : String) :
    decodePaths key (scalar.setting origin) = .error (.wrongShape scalar.found .sequence) := by
  cases scalar <;> rfl

theorem mergeSources_single (field : Field) (h : isTable value = false) :
    mergeSources [[(field.path, value)]] = .table none
      (match field.table? with
        | none => [(field.key, value)]
        | some table => [(table, .table none [(field.key, value)])]) := by
  have hpath := field.ofText_path
  cases htable : field.table? with
  | none =>
    have hkey : field.path = field.key := by rw [Field.path, htable]
    rw [htable, hkey] at hpath
    simp only [mergeSources, applySource, List.foldl_cons, List.foldl_nil, hkey, hpath, Setting.setPath,
      Setting.setAt, setEntry_of_isTable h, field.lowercase_key, Setting.entries, Setting.withEntries,
      Assoc.set]
  | some table =>
    have hmem := Field.mem_tables htable
    rw [htable] at hpath
    -- The second pass merges the new table into an empty one, which leaves it as it is.
    simp only [mergeSources, applySource, List.foldl_cons, List.foldl_nil, hpath, Setting.setPath,
      Setting.setAt, List.lookup_nil, Option.getD_none, Setting.entries, Setting.withEntries,
      setEntry_of_isTable h, field.lowercase_key, Assoc.set, Field.ofText_table hmem, setEntry,
      Field.lowercase_table hmem, setEntries]

theorem mergeSources_nil_append (names : List Path) (source : List (String × Setting)) :
    mergeSources (names.map (fun _ => []) ++ [source]) = mergeSources [source] := by
  have hnone (names : List Path) (root : Setting) :
      (names.map fun _ => []).foldl applySource root = root := by
    induction names with
    | nil => rfl
    | cons name names ih => exact ih
  rw [mergeSources, mergeSources, List.foldl_append, hnone]

theorem decodeEntries_singleton {σ : Type} (keyOf : String → String) (fields : List (DecodedField σ))
    (start : σ) (pair : String × Setting) :
    decodeEntries keyOf fields start [pair] = decodeField keyOf fields start pair := by
  rw [decodeEntries_cons]
  cases decodeField keyOf fields start pair <;> rfl

theorem ofSetting_paths (name : String) :
    ofSetting (.table none [("paths", .table none [(name, value)])]) =
      (decodeField ("paths" ++ "." ++ ·) directoryFields {} (name, value)).map fun directories =>
        { directories } := by
  refine (decodeEntries_singleton id settingsFields {} _).trans ?_
  rw [← decodeEntries_singleton ("paths" ++ "." ++ ·) directoryFields]
  change (decodeDirectories "paths" (.table none [(name, value)]) >>= fun directories =>
    .ok ({ directories } : Settings)) = _
  rw [decodeDirectories, decodePart]
  cases decodeEntries ("paths" ++ "." ++ ·) directoryFields {} [(name, value)] <;> rfl

theorem ofSetting_includes (hplain : isTable value = false) :
    ofSetting (mergeSources [[(Field.includes.path, value)]]) =
      (decodePaths "include" value).map fun includes => { includes } := by
  rw [mergeSources_single .includes hplain]
  refine (decodeEntries_singleton id settingsFields {} ("include", value)).trans ?_
  change (decodePaths "include" value >>= fun includes => .ok ({ includes } : Settings)) = _
  cases decodePaths "include" value <;> rfl

def withDirectory? : Field → Option (Path → Settings)
  | .api => some fun path => { directories := { api := path } }
  | .components => some fun path => { directories := { components := path } }
  | .output => some fun path => { directories := { output := path } }
  | _ => none

theorem path_ne_include {field : Field} {settings : Path → Settings}
    (h : withDirectory? field = some settings) : field.path ≠ "include" := by
  intro hpath
  obtain rfl : field = .includes := Field.path_injective hpath
  cases h

theorem ofSetting_directory {field : Field} {settings : Path → Settings} {path : Path}
    (hfield : withDirectory? field = some settings) (hplain : isTable value = false)
    (hpath : ∀ key, decodePath key value = .ok path) :
    ofSetting (mergeSources [[(field.path, value)]]) = .ok (settings path) := by
  rw [mergeSources_single field hplain]
  cases field with
  | includes | writeSupport | skipUnchanged => cases hfield
  | _ =>
    obtain rfl := Option.some.inj hfield
    refine (ofSetting_paths _).trans ?_
    change ((decodePath _ value >>= fun _ => .ok _).map _) = _
    rw [hpath]
    rfl

-- ---------------------------------------------------------------------------
-- One variable
-- ---------------------------------------------------------------------------

def variableName : Field → String
  | .includes => "TYPEGEN__INCLUDE"
  | .api => "TYPEGEN__PATHS__API_DIR"
  | .components => "TYPEGEN__PATHS__COMPONENTS_DIR"
  | .output => "TYPEGEN__PATHS__OUTPUT_DIR"
  | .writeSupport => "TYPEGEN__OUTPUT__WRITE_BOILERPLATE"
  | .skipUnchanged => "TYPEGEN__OUTPUT__SKIP_UNCHANGED"

theorem variableKey?_variableName (field : Field) :
    variableKey? (variableName field) = some field.path := by
  cases field <;> decide +kernel

/-- Whether a variable for a field is all that is said: there are no files, and of the other variables
none counts. -/
structure SaysOnly (tree : FileTree) (sources : Sources) (field : Field) (text : String) : Prop where
  files : ∀ name ∈ sources.optionalFiles tree, findFile tree name = .error (.notFound name)
  explicit : sources.explicit? = none
  environment : sources.environment.filter (fun pair => (variableKey? pair.1).isSome) =
    [(variableName field, text)]

variable {tree : FileTree} {sources : Sources} {field : Field}

theorem ofEnvironment_filter (environment : List (String × String)) :
    ofEnvironment (environment.filter fun pair => (variableKey? pair.1).isSome) =
      ofEnvironment environment := by
  rw [ofEnvironment, ofEnvironment, List.filterMap_filter]
  refine List.filterMap_congr fun pair _ => ?_
  cases hkey : variableKey? pair.1 <;> simp [hkey]

theorem SaysOnly.load_eq (h : SaysOnly tree sources field text) :
    load tree sources = ofSetting (mergeSources [[(field.path, variableValue field.path text)]]) := by
  have hfiles : (sources.optionalFiles tree).mapM (readOptionalFile tree) =
      .ok ((sources.optionalFiles tree).map fun _ => []) :=
    mapM_eq_ok_of_forall fun name hname => readOptionalFile_of_missing (h.files name hname)
  have henvironment : ofEnvironment sources.environment =
      [(field.path, variableValue field.path text)] := by
    rw [← ofEnvironment_filter, h.environment]
    simp [ofEnvironment, variableKey?_variableName]
  rw [load, Sources.read, hfiles, h.explicit, henvironment]
  exact congrArg ofSetting ((congrArg mergeSources (List.append_assoc _ _ _)).trans
    (mergeSources_nil_append (sources.optionalFiles tree) _))

structure ArePartsOf (text : String) (parts : List String) : Prop where
  nonempty : parts ≠ []
  uncut : ∀ part ∈ parts, ',' ∉ part.toList
  whole : ",".intercalate parts = text

theorem arePartsOf_commaParts (text : String) : ArePartsOf text (commaParts text) where
  nonempty := by simp [commaParts]
  uncut part hpart := by
    obtain ⟨piece, hpiece, rfl⟩ := List.mem_map.1 hpart
    rw [String.toList_ofList]
    exact Path.not_mem_of_mem_splitOn hpiece
  whole := by
    rw [← String.toList_inj, String.toList_intercalate, commaParts, List.map_map]
    simp [Function.comp_def]

theorem SaysOnly.load_directory (h : SaysOnly tree sources field text) {settings : Path → Settings}
    (hfield : withDirectory? field = some settings) {directory : String}
    (hpath : ∀ key, decodePath key (variableValue field.path text) = .ok ⟨directory⟩) :
    load tree sources = .ok (settings ⟨directory⟩) :=
  h.load_eq.trans (ofSetting_directory hfield (isTable_variableValue _ _) hpath)

theorem SaysOnly.load_includes (h : SaysOnly tree sources .includes text) :
    load tree sources = (decodePaths "include" (variableValue Field.includes.path text)).map
      fun includes => { includes } :=
  h.load_eq.trans (ofSetting_includes (isTable_variableValue _ _))

theorem SaysOnly.exists_directory (h : SaysOnly tree sources field text) {settings : Path → Settings}
    (hfield : withDirectory? field = some settings) :
    ∃ directory, load tree sources = .ok (settings ⟨directory⟩) ∧
      ((∀ scalar, ¬LooksLike text scalar) → directory = text) ∧
      ∀ scalar, LooksLike text scalar → directory = scalar.written := by
  by_cases hlooks : ∃ scalar, LooksLike text scalar
  · obtain ⟨scalar, hscalar⟩ := hlooks
    have hvalue := variableValue_of_looksLike hscalar field.path
    refine ⟨scalar.written, h.load_directory hfield fun key => ?_, fun hnone => ?_,
      fun other hother => ?_⟩
    · rw [hvalue, decodePath_setting]
    · exact absurd hscalar (hnone scalar)
    · rw [hscalar.unique hother]
  · have hnone (scalar : Scalar) : ¬LooksLike text scalar := fun hscalar => hlooks ⟨scalar, hscalar⟩
    have hvalue := variableValue_of_isPlain (isPlain_of_not_looksLike hnone) field.path
    refine ⟨text, h.load_directory hfield fun key => ?_, fun _ => rfl, fun scalar hscalar => ?_⟩
    · rw [hvalue, if_neg (path_ne_include hfield)]
      rfl
    · exact absurd hscalar (hnone scalar)

theorem SaysOnly.load_parts (h : SaysOnly tree sources .includes text)
    (hnone : ∀ scalar, ¬LooksLike text scalar) :
    load tree sources = .ok { includes := (commaParts text).map Path.mk } := by
  have hread : paths? (.sequence (some environmentName)
      ((commaParts text).map (.text (some environmentName)))) = some ((commaParts text).map Path.mk) :=
    mapM_path? _ _
  have hkey : Field.includes.path = "include" := rfl
  rw [h.load_includes, variableValue_of_isPlain (isPlain_of_not_looksLike hnone), if_pos hkey,
    decodePaths_of_paths? hread]
  rfl

theorem SaysOnly.load_refused (h : SaysOnly tree sources .includes text)
    (hscalar : LooksLike text scalar) :
    load tree sources = .error (.wrongShape scalar.found .sequence) := by
  rw [h.load_includes, variableValue_of_looksLike hscalar, decodePaths_setting]
  rfl

/-- A directory is the text of its variable, or the form in which the boolean or number is written that
the text looks like. Included are the parts of the text between its commas, unless it looks like a
boolean or a number, which only a text of letters, digits, signs and points does. -/
theorem load_variable (h : SaysOnly tree sources field text) :
    (∀ settings, withDirectory? field = some settings →
      ∃ directory, load tree sources = .ok (settings ⟨directory⟩) ∧
        ((∀ scalar, ¬LooksLike text scalar) → directory = text) ∧
        ∀ scalar, LooksLike text scalar → directory = scalar.written) ∧
    (field = .includes →
      ((∀ scalar, ¬LooksLike text scalar) →
        ∃ parts, ArePartsOf text parts ∧ load tree sources = .ok { includes := parts.map Path.mk }) ∧
      ∀ scalar, LooksLike text scalar →
        load tree sources = .error (.wrongShape scalar.found .sequence)) ∧
    ∀ scalar, LooksLike text scalar → ∀ c ∈ text.toList, IsScalarChar c := by
  refine ⟨fun settings hfield => h.exists_directory hfield, ?_,
    fun scalar hscalar => hscalar.forall_isScalarChar⟩
  rintro rfl
  exact ⟨fun hnone => ⟨commaParts text, arePartsOf_commaParts text, h.load_parts hnone⟩,
    fun scalar hscalar => h.load_refused hscalar⟩

def singleVariable (field : Field) (text : String) : Sources where
  root := ⟨"."⟩
  userFile := ⟨"/user.toml"⟩
  environment := [("HOME", "/root"), (variableName field, text)]

theorem saysOnly_singleVariable (field : Field) (text : String) :
    SaysOnly .root (singleVariable field text) field text where
  files := by
    -- The places of the files do not depend on the variable.
    change ∀ name ∈ (singleVariable .includes "").optionalFiles .root, _
    decide +kernel
  explicit := rfl
  environment := by
    have hother : variableKey? "HOME" = none := by decide +kernel
    simp [singleVariable, hother, variableKey?_variableName]

/-- A directory whose name is a number with zeros in front, and includes of which one is. -/
theorem load_variable_of_padded :
    load .root (singleVariable .output "007") = .ok { directories := { output := ⟨"7"⟩ } } ∧
      ∃ parts, ArePartsOf "extra/a.json,007" parts ∧
        load .root (singleVariable .includes "extra/a.json,007") =
          .ok { includes := parts.map Path.mk } := by
  have hpadded : LooksLike "007" (.integer 7) := looksLike_integer (by decide) (by decide)
  have hslash (scalar : Scalar) : ¬LooksLike "extra/a.json,007" scalar := fun hlooks => by
    have hchar :=
      (load_variable (saysOnly_singleVariable .includes _)).2.2 scalar hlooks '/' (by decide)
    exact absurd hchar (by unfold IsScalarChar; decide)
  obtain ⟨directory, hload, -, hwritten⟩ :=
    (load_variable (saysOnly_singleVariable .output "007")).1 _ rfl
  obtain rfl : directory = "7" := hwritten _ hpadded
  obtain ⟨hparts, -⟩ :=
    (load_variable (saysOnly_singleVariable .includes "extra/a.json,007")).2.1 rfl
  exact ⟨hload, hparts hslash⟩

/-- The directory is not what its variable says, and a single include that is a number is none. -/
theorem load_ne_variable :
    (SaysOnly .root (singleVariable .output "007") .output "007" ∧
      load .root (singleVariable .output "007") ≠ .ok { directories := { output := ⟨"007"⟩ } }) ∧
    SaysOnly .root (singleVariable .includes "5") .includes "5" ∧
      load .root (singleVariable .includes "5") ≠ .ok { includes := [⟨"5"⟩] } := by
  have hpadded : LooksLike "007" (.integer 7) := looksLike_integer (by decide) (by decide)
  have hsingle : LooksLike "5" (.integer 5) := looksLike_integer (by decide) (by decide)
  have hdirectory := saysOnly_singleVariable .output "007"
  have hincludes := saysOnly_singleVariable .includes "5"
  refine ⟨⟨hdirectory, ?_⟩, hincludes, ?_⟩
  · rw [hdirectory.load_directory rfl fun key => by
      rw [variableValue_of_looksLike hpadded, decodePath_setting]]
    decide
  · rw [hincludes.load_refused hsingle]
    exact nofun

end ContentTypes.Settings
