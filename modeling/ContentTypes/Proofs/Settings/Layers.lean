import ContentTypes.Proofs.Outcome
import ContentTypes.Proofs.Settings.Decoding
import ContentTypes.Settings.Load

/-!
# Layers of settings

Each source is a layer: for some of the fields it says what is in them. Settings that are loaded have in
each field what the last layer says that says something of it: `load_layers`.
-/

namespace ContentTypes.Settings

open Setting (leaves IsLayer)

/-- What a source says of each field. -/
abbrev Layer := (field : Field) → Option field.Value

-- ---------------------------------------------------------------------------
-- Layers of sources
-- ---------------------------------------------------------------------------

def said (source : List (String × Setting)) : Layer := fun field =>
  ((leaves source).reverse.lookup field.path).bind field.read?

/-- What the last of some layers says that says something of a field. -/
def lastSaid (layers : List Layer) : Layer := fun field =>
  layers.reverse.findSome? (· field)

/-- Settings with what is said, and defaults in all other fields. -/
def IsSaid (settings : Settings) (layer : Layer) : Prop :=
  ∀ field, settings.value field = (layer field).getD (({} : Settings).value field)

theorem findSome?_bind {α β γ : Type} {items : List α} {first : α → Option β} {next : β → Option γ}
    (h : ∀ item ∈ items, ∀ value, first item = some value → (next value).isSome = true) :
    (items.findSome? first).bind next = items.findSome? fun item => (first item).bind next := by
  induction items with
  | nil => rfl
  | cons item rest ih =>
    rw [List.findSome?_cons, List.findSome?_cons]
    cases hfirst : first item with
    | none => exact ih fun item hm => h item (List.mem_cons_of_mem _ hm)
    | some value =>
      obtain ⟨result, hresult⟩ := Option.isSome_iff_exists.1 (h item List.mem_cons_self value hfirst)
      simp [hresult]

theorem isSome_read?_of_lookup {source : List (String × Setting)} (h : IsLayer source)
    {field : Field} {value : Setting}
    (hlookup : (leaves source).reverse.lookup field.path = some value) :
    (field.read? value).isSome = true := by
  obtain ⟨other, hpath, hread⟩ := h.leaves _ (List.mem_reverse.1 (Assoc.mem_of_lookup hlookup))
  obtain rfl := Field.path_injective hpath
  exact hread

theorem ofSetting_mergeSources {sources : List (List (String × Setting))}
    (h : ∀ source ∈ sources, IsLayer source) :
    ∃ settings, ofSetting (Setting.mergeSources sources) = .ok settings ∧
      settings.IsSaid (lastSaid (sources.map said)) := by
  obtain ⟨entries, hmerge, hm, hvalues⟩ := Setting.mergeSources_layers h
  obtain ⟨settings, hsettings, hfields⟩ := ofSetting_merged hm
  refine ⟨settings, hmerge ▸ hsettings, fun field => ?_⟩
  have hread : ∀ source ∈ sources.reverse, ∀ value,
      (leaves source).reverse.lookup field.path = some value → (field.read? value).isSome = true :=
    fun source hs _ => isSome_read?_of_lookup (h source (List.mem_reverse.1 hs))
  rw [hfields, hvalues, Setting.lastLeaf?, findSome?_bind hread, lastSaid, ← List.map_reverse,
    List.findSome?_map]
  rfl

-- ---------------------------------------------------------------------------
-- Layers of environments
-- ---------------------------------------------------------------------------

def IsPlain (text : String) : Prop :=
  booleanOfText? text = none ∧ integerOfText? text = none ∧ Binary64.ofText? text = none

instance : DecidablePred IsPlain := fun _ =>
  inferInstanceAs (Decidable (_ ∧ _ ∧ _))

def Field.ofText? : (field : Field) → String → Option field.Value
  | includes, text => if IsPlain text then some ((commaParts text).map Path.mk) else none
  | api, text | components, text | output, text => if IsPlain text then some ⟨text⟩ else none
  | writeSupport, text | skipUnchanged, text => booleanOfText? text

def countedVariables (environment : List (String × String)) : List (String × String) :=
  environment.filterMap fun (name, text) => (variableKey? name).map fun key => (key, text)

def IsEnvironmentLayer (environment : List (String × String)) : Prop :=
  ∀ pair ∈ countedVariables environment,
    ∃ field : Field, field.path = pair.1 ∧ (field.ofText? pair.2).isSome = true

def environmentSaid (environment : List (String × String)) : Layer := fun field =>
  ((countedVariables environment).reverse.lookup field.path).bind field.ofText?

theorem variableValue_of_isPlain {text : String} (h : IsPlain text) (key : String) :
    variableValue key text =
      if key = "include" then
        .sequence (some environmentName) ((commaParts text).map (.text (some environmentName)))
      else .text (some environmentName) text := by
  obtain ⟨hboolean, hinteger, hnumber⟩ := h
  simp only [variableValue, hboolean, hinteger, hnumber]

theorem mapM_path? (origin : Origin) (texts : List String) :
    (texts.map (Setting.text origin)).mapM path? = some (texts.map Path.mk) := by
  induction texts with
  | nil => rfl
  | cons text rest ih =>
    rw [List.map_cons, List.mapM_cons, ih]
    rfl

theorem read?_variableValue {field : Field} {text : String}
    (h : (field.ofText? text).isSome = true) :
    field.read? (variableValue field.path text) = field.ofText? text := by
  have hplain : ∀ {α : Type} {value : α}, (if IsPlain text then some value else none).isSome = true →
      IsPlain text := fun h => by
    by_contra hnot
    rw [if_neg hnot] at h
    cases h
  cases field with
  | includes =>
    have hp := hplain h
    rw [variableValue_of_isPlain hp]
    exact (mapM_path? _ _).trans (if_pos hp).symm
  | writeSupport | skipUnchanged =>
    obtain ⟨value, hvalue⟩ := Option.isSome_iff_exists.1 h
    have hvalue : booleanOfText? text = some value := hvalue
    simp only [variableValue, hvalue, Field.ofText?]
    rfl
  | _ =>
    have hp := hplain h
    rw [variableValue_of_isPlain hp]
    exact (if_pos hp).symm

theorem isTable_variableValue (key text : String) : (variableValue key text).isTable = false := by
  unfold variableValue
  split
  · rfl
  · split
    · rfl
    · split
      · rfl
      · split <;> rfl

theorem leaves_ofEnvironment (environment : List (String × String)) :
    leaves (ofEnvironment environment) =
      (countedVariables environment).map fun pair => (pair.1, variableValue pair.1 pair.2) := by
  have hsource : ofEnvironment environment =
      (countedVariables environment).map fun pair => (pair.1, variableValue pair.1 pair.2) := by
    rw [ofEnvironment, countedVariables, List.map_filterMap]
    simp [Function.comp_def]
  rw [hsource, leaves]
  induction countedVariables environment with
  | nil => rfl
  | cons pair rest ih =>
    rw [List.map_cons, List.flatMap_cons, ih,
      Setting.leavesOf_of_isTable (isTable_variableValue _ _)]
    rfl

theorem lookup_map_value {α β : Type} (change : String → α → β) (pairs : List (String × α))
    (key : String) :
    (pairs.map fun pair => (pair.1, change pair.1 pair.2)).lookup key =
      (pairs.lookup key).map (change key) := by
  induction pairs with
  | nil => rfl
  | cons pair rest ih =>
    obtain ⟨other, value⟩ := pair
    by_cases h : key = other
    · simp [h]
    · simp [List.lookup_cons, beq_eq_false_iff_ne.2 h, ih]

variable {environment : List (String × String)}

theorem IsEnvironmentLayer.isLayer (h : IsEnvironmentLayer environment) :
    IsLayer (ofEnvironment environment) := by
  constructor
  · intro pair hp ht
    obtain ⟨⟨name, text⟩, -, hpair⟩ := List.mem_filterMap.1 hp
    obtain ⟨key, -, rfl⟩ := Option.map_eq_some_iff.1 hpair
    rw [isTable_variableValue] at ht
    cases ht
  · intro leaf hl
    rw [leaves_ofEnvironment] at hl
    obtain ⟨pair, hp, rfl⟩ := List.mem_map.1 hl
    obtain ⟨field, hpath, hread⟩ := h pair hp
    refine ⟨field, hpath, ?_⟩
    rw [← hpath, read?_variableValue hread]
    exact hread

theorem IsEnvironmentLayer.said_eq (h : IsEnvironmentLayer environment) :
    said (ofEnvironment environment) = environmentSaid environment := by
  funext field
  rw [said, environmentSaid, leaves_ofEnvironment, ← List.map_reverse, lookup_map_value,
    Option.bind_map]
  cases hlookup : (countedVariables environment).reverse.lookup field.path with
  | none => rfl
  | some text =>
    obtain ⟨other, hpath, hread⟩ := h _ (List.mem_reverse.1 (Assoc.mem_of_lookup hlookup))
    obtain rfl := Field.path_injective hpath
    exact read?_variableValue hread

-- ---------------------------------------------------------------------------
-- Loading
-- ---------------------------------------------------------------------------

/-- What a file says that may be missing, or that is looked for with an extension added. -/
inductive FileSays (tree : FileTree) (name : Path) : Layer → Prop
  | missing : findFile tree name = .error (.notFound name) → FileSays tree name fun _ => none
  | present {source : List (String × Setting)} : readFile tree name = .ok source →
    IsLayer source → FileSays tree name (said source)

structure Layers where
  project : Layer
  hidden : Layer
  user : Layer
  shared : Layer
  explicit : Layer
  environment : Layer

def Layers.inOrder (layers : Layers) : List Layer :=
  [layers.project, layers.hidden, layers.user, layers.shared, layers.explicit, layers.environment]

/-- The sources say nothing but what is in fields, in these layers. -/
structure Layers.Of (layers : Layers) (tree : FileTree) (sources : Sources) : Prop where
  project : FileSays tree (sources.root.join ⟨"typegen.toml"⟩) layers.project
  hidden : FileSays tree (sources.root.join ⟨".typegen.toml"⟩) layers.hidden
  user : if tree.pathExists sources.userFile then FileSays tree sources.userFile layers.user
    else layers.user = fun _ => none
  shared : FileSays tree (sources.root.join ⟨"types/Config.json"⟩) layers.shared
  explicit : match sources.explicit? with
    | some name => ∃ source, readFile tree name = .ok source ∧ IsLayer source ∧
      layers.explicit = said source
    | none => layers.explicit = fun _ => none
  environment : IsEnvironmentLayer sources.environment ∧
    layers.environment = environmentSaid sources.environment

theorem lastSaid_append (layers later : List Layer) (field : Field) :
    lastSaid (layers ++ later) field = (lastSaid later field).or (lastSaid layers field) := by
  rw [lastSaid, List.reverse_append, List.findSome?_append]
  rfl

theorem isLayer_nil : IsLayer [] :=
  ⟨fun _ hp => (nomatch hp), fun _ hl => (nomatch hl)⟩

def ReadsAs (read : Path → Except LoadError (List (String × Setting))) (names : List Path)
    (layers : List Layer) : Prop :=
  ∃ sources, names.mapM read = .ok sources ∧ (∀ source ∈ sources, IsLayer source) ∧
    lastSaid (sources.map said) = lastSaid layers

section
variable {read : Path → Except LoadError (List (String × Setting))} {names others : List Path}
  {layers later : List Layer}

theorem ReadsAs.append (h : ReadsAs read names layers) (h' : ReadsAs read others later) :
    ReadsAs read (names ++ others) (layers ++ later) := by
  obtain ⟨sources, hread, hlayers, hsaid⟩ := h
  obtain ⟨sources', hread', hlayers', hsaid'⟩ := h'
  refine ⟨sources ++ sources', ?_, fun source hs => ?_, ?_⟩
  · rw [List.mapM_append, hread, hread']
    rfl
  · rcases List.mem_append.1 hs with hs | hs
    · exact hlayers source hs
    · exact hlayers' source hs
  · funext field
    rw [List.map_append, lastSaid_append, lastSaid_append, hsaid, hsaid']

theorem readsAs_nothing : ReadsAs read [] [fun _ => none] :=
  ⟨[], rfl, fun _ hs => (nomatch hs), rfl⟩

theorem readsAs_one {name : Path} {source : List (String × Setting)} (h : read name = .ok source)
    (hlayer : IsLayer source) : ReadsAs read [name] [said source] := by
  refine ⟨[source], ?_, fun other ho => List.mem_singleton.1 ho ▸ hlayer, rfl⟩
  rw [List.mapM_cons, h]
  rfl

end

variable {tree : FileTree} {sources : Sources}

theorem readOptionalFile_of_missing {name : Path}
    (h : findFile tree name = .error (.notFound name)) :
    readOptionalFile tree name = .ok [] := by
  have hread : readFile tree name = .error (.notFound name) := by
    rw [readFile, h]
    rfl
  rw [readOptionalFile, hread]

theorem FileSays.readsAs {name : Path} {layer : Layer} (h : FileSays tree name layer) :
    ReadsAs (readOptionalFile tree) [name] [layer] := by
  cases h with
  | missing hmissing =>
    exact readsAs_one (readOptionalFile_of_missing hmissing) isLayer_nil
  | present hread hlayer =>
    exact readsAs_one (by rw [readOptionalFile, hread]) hlayer

namespace Layers.Of

variable {layers : Layers}

theorem readsAs_user (h : layers.Of tree sources) :
    ReadsAs (readOptionalFile tree)
      (if tree.pathExists sources.userFile then [sources.userFile] else []) [layers.user] := by
  have huser := h.user
  split at huser
  · rename_i hexists
    rw [if_pos hexists]
    exact huser.readsAs
  · rename_i hexists
    rw [if_neg hexists, huser]
    exact readsAs_nothing

theorem readsAs_explicit (h : layers.Of tree sources) :
    ReadsAs (readFile tree) sources.explicit?.toList [layers.explicit] := by
  have hexplicit := h.explicit
  cases hname : sources.explicit? with
  | none =>
    rw [hname] at hexplicit
    exact hexplicit ▸ readsAs_nothing
  | some name =>
    rw [hname] at hexplicit
    obtain ⟨source, hread, hlayer, hsaid⟩ := hexplicit
    exact hsaid ▸ readsAs_one hread hlayer

theorem exists_read (h : layers.Of tree sources) :
    ∃ all, sources.read tree = .ok all ∧ (∀ source ∈ all, IsLayer source) ∧
      lastSaid (all.map said) = lastSaid layers.inOrder := by
  obtain ⟨optional, hoptional, hlayers, hsaid⟩ :=
    ((h.project.readsAs.append h.hidden.readsAs).append h.readsAs_user).append h.shared.readsAs
  obtain ⟨explicit, hread, hexplicitLayers, hexplicitSaid⟩ := h.readsAs_explicit
  obtain ⟨henvironment, henvironmentSaid⟩ := h.environment
  refine ⟨optional ++ explicit ++ [ofEnvironment sources.environment], ?_, fun source hs => ?_, ?_⟩
  · rw [Sources.read, Sources.optionalFiles, hread]
    exact congrArg (fun optional => optional >>= _) hoptional
  · rcases List.mem_append.1 hs with hs | hs
    · exact (List.mem_append.1 hs).elim (hlayers source) (hexplicitLayers source)
    · exact List.mem_singleton.1 hs ▸ henvironment.isLayer
  · funext field
    rw [List.map_append, List.map_append, lastSaid_append, lastSaid_append, hsaid, hexplicitSaid,
      List.map_singleton, henvironment.said_eq, ← henvironmentSaid, ← lastSaid_append,
      ← lastSaid_append]
    rfl

end Layers.Of

/-- Loading succeeds, and each field has what the last source says of it that says something of it. A
field of which nothing is said has its default. -/
theorem load_layers {layers : Layers} (h : layers.Of tree sources) :
    ∃ settings, load tree sources = .ok settings ∧ settings.IsSaid (lastSaid layers.inOrder) := by
  obtain ⟨all, hsources, hlayers, hsaid⟩ := h.exists_read
  obtain ⟨settings, hsettings, hvalues⟩ := ofSetting_mergeSources hlayers
  exact ⟨settings, bind_eq_ok.2 ⟨all, hsources, hsettings⟩, hsaid ▸ hvalues⟩

instance (source : List (String × Setting)) : Decidable (IsLayer source) :=
  decidable_of_iff ((∀ pair ∈ source, pair.2.isTable = true → pair.1 ∈ Field.tables) ∧
      ∀ leaf ∈ leaves source,
        ∃ field ∈ Field.all, field.path = leaf.1 ∧ (field.read? leaf.2).isSome = true)
    ⟨fun ⟨htables, hleaves⟩ => ⟨htables, fun leaf hl => (hleaves leaf hl).imp fun _ h => h.2⟩,
      fun h => ⟨h.tables, fun leaf hl =>
        (h.leaves leaf hl).imp fun field hf => ⟨field.mem_all, hf⟩⟩⟩

instance (environment : List (String × String)) : Decidable (IsEnvironmentLayer environment) :=
  decidable_of_iff (∀ pair ∈ countedVariables environment,
      ∃ field ∈ Field.all, field.path = pair.1 ∧ (field.ofText? pair.2).isSome = true)
    ⟨fun h pair hp => (h pair hp).imp fun _ h => h.2, fun h pair hp =>
      (h pair hp).imp fun field hf => ⟨field.mem_all, hf⟩⟩

def layeredTree : FileTree :=
  let project := (FileTree.root.writeText ⟨"typegen.toml"⟩
    "include = [\"a.json\"]\n[paths]\napi_dir = \"api\"\noutput_dir = \"made\"\n").toOption.getD .root
  let made := (project.makeDirectories ⟨"types"⟩).1
  (made.writeText ⟨"types/Config.json"⟩
    "\x7b\"include\":[\"b.json\"],\"paths\":\x7b\"output_dir\":\"out\"\x7d\x7d").toOption.getD made

def layeredSources : Sources where
  root := ⟨"."⟩
  userFile := ⟨"/user.toml"⟩
  environment := [("TYPEGEN__OUTPUT__SKIP_UNCHANGED", "false")]

def layeredSource (name : Path) : List (String × Setting) :=
  (readFile layeredTree name).toOption.getD []

theorem fileSays_layered {name : Path} (hread : (readFile layeredTree name).isOk = true)
    (hlayer : IsLayer (layeredSource name)) :
    FileSays layeredTree name (said (layeredSource name)) := by
  refine .present ?_ hlayer
  unfold layeredSource
  cases hsource : readFile layeredTree name with
  | ok => rfl
  | error error =>
    rw [hsource] at hread
    cases hread

/-- The later list of includes takes the place of the earlier one. Of the two directories that are set
together, the one that is not set again stays. -/
theorem load_layers_of_three :
    ∃ settings, load layeredTree layeredSources = .ok settings ∧
      settings.includes = [⟨"b.json"⟩] ∧
      settings.directories = ⟨⟨"api"⟩, ⟨"src/components"⟩, ⟨"out"⟩⟩ ∧
      settings.output = ⟨true, false⟩ := by
  obtain ⟨project, hproject, hprojectSays⟩ :
      ∃ layer, layer = said (layeredSource ⟨"./typegen.toml"⟩) ∧
        FileSays layeredTree ⟨"./typegen.toml"⟩ layer :=
    ⟨_, rfl, fileSays_layered (by decide +kernel) (by decide +kernel)⟩
  obtain ⟨shared, hshared, hsharedSays⟩ :
      ∃ layer, layer = said (layeredSource ⟨"./types/Config.json"⟩) ∧
        FileSays layeredTree ⟨"./types/Config.json"⟩ layer :=
    ⟨_, rfl, fileSays_layered (by decide +kernel) (by decide +kernel)⟩
  have hroot : layeredSources.root.join ⟨"typegen.toml"⟩ = ⟨"./typegen.toml"⟩ := by decide +kernel
  have htypes : layeredSources.root.join ⟨"types/Config.json"⟩ = ⟨"./types/Config.json"⟩ := by
    decide +kernel
  have huser : layeredTree.pathExists layeredSources.userFile = false := by decide +kernel
  have henvironment : IsEnvironmentLayer layeredSources.environment := by decide +kernel
  have hlayers : Layers.Of ⟨project, fun _ => none, fun _ => none, shared, fun _ => none,
      environmentSaid layeredSources.environment⟩ layeredTree layeredSources := by
    constructor
    · rw [hroot]
      exact hprojectSays
    · exact .missing (by decide +kernel)
    · rw [huser]
      rfl
    · rw [htypes]
      exact hsharedSays
    · rfl
    · exact ⟨henvironment, rfl⟩
  obtain ⟨settings, hload, hsaid⟩ := load_layers hlayers
  subst hproject hshared
  have hincludes : settings.includes = settings.value .includes := rfl
  have hdirectories : settings.directories =
      ⟨settings.value .api, settings.value .components, settings.value .output⟩ := rfl
  have houtput : settings.output =
      ⟨settings.value .writeSupport, settings.value .skipUnchanged⟩ := rfl
  refine ⟨settings, hload, ?_⟩
  rw [hincludes, hdirectories, houtput, hsaid, hsaid, hsaid, hsaid, hsaid, hsaid]
  decide +kernel

end ContentTypes.Settings
