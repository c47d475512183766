import ContentTypes.Proofs.FileTree.Children
import ContentTypes.Proofs.Project.Confinement

/-!
# The files that references lead to

An import says where a file is as seen from the importing one, and the plan says where it is as seen
from the output directory. The first is made from an identifier, the second from the name of an entity
or of a component's file: `references_find_files`.
-/

namespace ContentTypes

theorem Path.IsNormal.components_join_name {directory : Path} (h : directory.IsNormal)
    (name : FileName) :
    (directory.join ⟨name.text⟩).components = directory.components ++ [.normal name.text] := by
  have hpiece : componentOfPiece name.text = some (.normal name.text) := by
    simp [componentOfPiece, name.valid.2.1, name.valid.2.2.1]
  have hpieces := pieces_join directory _ name.isAbsolute_text
  rw [name.pieces_text] at hpieces
  have hhead : (directory.pieces ++ [name.text]).head? ≠ some "." := by
    cases hp : directory.pieces with
    | nil => simpa using name.valid.2.1
    | cons piece rest => simpa [hp] using h.head?_pieces_ne
  rw [h.components_eq, components, isAbsolute_join _ _ name.isAbsolute_text, h.goesDown.1, hpieces]
  simp only [Bool.false_eq_true, if_false, if_neg hhead, List.filterMap_append, List.nil_append,
    List.filterMap_cons_some hpiece, List.filterMap_nil]

namespace Declaration

-- ---------------------------------------------------------------------------
-- The last part of an identifier
-- ---------------------------------------------------------------------------

section
variable {mark text front tail : List Char}

theorem afterLast?_eq_none (h : ¬mark <:+: text) :
    afterLast? mark text = none := by
  induction text with
  | nil => rfl
  | cons c rest ih =>
    have hrest : ¬mark <:+: rest := fun hm => h (hm.trans (List.suffix_cons c rest).isInfix)
    have hprefix : ¬mark <+: c :: rest := fun hm => h hm.isInfix
    simp [afterLast?, ih hrest, hprefix]

theorem afterLast?_append (h : afterLast? mark text = some tail) (front : List Char) :
    afterLast? mark (front ++ text) = some tail := by
  induction front with
  | nil => exact h
  | cons c rest ih => simp [afterLast?, ih]

theorem afterLast_of_none (h : afterLast? mark text = none) : afterLast mark text = text := by
  rw [afterLast, h, Option.getD_none]

theorem afterLast_of_some (h : afterLast? mark text = some tail) : afterLast mark text = tail := by
  rw [afterLast, h, Option.getD_some]

theorem afterLast_dot (h : '.' ∉ text) (front : List Char) :
    afterLast ['.'] (front ++ '.' :: text) = text := by
  have hnone : afterLast? ['.'] text = none :=
    afterLast?_eq_none fun hm => h (hm.subset (List.mem_singleton_self '.'))
  have hlast : afterLast? ['.'] ('.' :: text) = some text := by simp [afterLast?, hnone]
  exact afterLast_of_some (afterLast?_append hlast front)

theorem afterLast?_colons (h : ¬[':', ':'] <:+: text) (front : List Char) :
    afterLast? [':', ':'] (front ++ '.' :: text) = none ∨
      ∃ back, afterLast? [':', ':'] (front ++ '.' :: text) = some (back ++ '.' :: text) := by
  induction front with
  | nil =>
    left
    simp [afterLast?, afterLast?_eq_none h]
  | cons c rest ih =>
    rcases ih with hnone | ⟨back, hsome⟩
    · cases rest with
      | nil =>
        left
        rw [List.cons_append, afterLast?, hnone]
        simp
      | cons d back =>
        -- two colons at the head are the last if there are none behind them
        by_cases hmark : c = ':' ∧ d = ':'
        · obtain ⟨rfl, rfl⟩ := hmark
          right
          refine ⟨back, ?_⟩
          rw [List.cons_append, afterLast?, hnone]
          simp
        · left
          have hprefix : ¬[':', ':'] <+: c :: (d :: back ++ '.' :: text) := by
            rintro ⟨rest, hrest⟩
            simp only [List.cons_append, List.cons.injEq] at hrest
            exact hmark ⟨hrest.1.symm, hrest.2.1.symm⟩
          rw [List.cons_append, afterLast?, hnone]
          simpa using hprefix
    · right
      refine ⟨back, ?_⟩
      rw [List.cons_append, afterLast?, hsome]

end

/-- Whether a text is the last part of each identifier that ends with it behind a dot. -/
def IsLastPart (text : String) : Prop :=
  '.' ∉ text.toList ∧ ¬[':', ':'] <:+: text.toList

instance : DecidablePred IsLastPart := fun text =>
  inferInstanceAs (Decidable ('.' ∉ text.toList ∧ ¬[':', ':'] <:+: text.toList))

theorem IsLastPart.typeName_append {text : String} (h : IsLastPart text) (front : String) :
    typeName (front ++ "." ++ text) = pascalCase text := by
  have huid : (front ++ "." ++ text).toList = front.toList ++ '.' :: text.toList := by simp
  have hpart : localPart (front ++ "." ++ text) = text := by
    unfold localPart
    rw [huid, ← String.toList_inj, String.toList_ofList]
    rcases afterLast?_colons h.2 front.toList with hnone | ⟨back, hsome⟩
    · rw [afterLast_of_none hnone]
      exact afterLast_dot h.1 front.toList
    · rw [afterLast_of_some hsome]
      exact afterLast_dot h.1 back
  rw [typeName, hpart]

-- ---------------------------------------------------------------------------
-- Files of types
-- ---------------------------------------------------------------------------

def typeFile (name : String) (h : '/' ∉ name.toList) : FileName where
  text := name ++ ".ts"
  valid := by
    refine ⟨?_, ?_, ?_, by simpa using h⟩ <;> intro he
    all_goals simpa using congrArg (·.toList.getLast?) he

def ContentKind.directory : ContentKind → Path
  | entity => ⟨""⟩
  | component => ⟨"components"⟩

theorem GeneratedUnit.path_eq (unit : GeneratedUnit) :
    unit.path = unit.kind.directory.join ⟨unit.name ++ ".ts"⟩ := by
  unfold path fileName ContentKind.directory
  cases unit.kind <;> simp [Path.join]

theorem ContentKind.parent?_join (kind : ContentKind) (name : FileName) :
    (kind.directory.join ⟨name.text⟩).parent? = some kind.directory := by
  have hnormal : kind.directory.IsNormal := by
    cases kind <;> decide +kernel
  have hsame : Path.ofComponents kind.directory.components = kind.directory := by
    cases kind <;> decide +kernel
  simp [Path.parent?, hnormal.components_join_name, hsame]

-- ---------------------------------------------------------------------------
-- Imported files
-- ---------------------------------------------------------------------------

def importedFile (importing : Path) (specifier : String) : Path :=
  (importing.parent?.getD ⟨""⟩).join ⟨specifier ++ ".ts"⟩

/-- The reference leads from the file at `importing` to that at `path`, wherever the output directory
is, and imports the two declarations of the type `name`. -/
structure Reference.Finds (reference : Reference) (importing path : Path) (name : String) :
    Prop where
  leads : ∀ (tree : FileTree) (directory : Path),
    tree.destination (directory.join (importedFile importing reference.need.path)) =
      tree.destination (directory.join path)
  names : reference.need.symbols.map (·.name) = [name, flatName name]

variable {unit : GeneratedUnit} {name : String}

theorem importedFile_eq {inner : String} (hunit : '/' ∉ unit.name.toList)
    (hname : '/' ∉ name.toList) (hslash : (⟨inner⟩ : Path).endsWithSlash = true) :
    importedFile unit.path (inner ++ name) =
      unit.kind.directory.join ((⟨inner⟩ : Path).join ⟨(typeFile name hname).text⟩) := by
  have hrelative : (⟨name ++ ".ts"⟩ : Path).isAbsolute = false :=
    (typeFile name hname).isAbsolute_text
  have hne : inner ≠ "" := by
    rintro rfl
    cases hslash
  have hspecifier : (⟨inner⟩ : Path).join ⟨name ++ ".ts"⟩ = ⟨inner ++ name ++ ".ts"⟩ := by
    simp [Path.join, hrelative, hne, hslash, String.append_assoc]
  have hparent : unit.path.parent? = some unit.kind.directory := by
    rw [unit.path_eq]
    exact unit.kind.parent?_join (typeFile unit.name hunit)
  rw [importedFile, hparent, Option.getD_some, ← hspecifier]
  rfl

theorem destination_importedFile (tree : FileTree) (directory : Path) {inner : String}
    (hunit : '/' ∉ unit.name.toList) (hname : '/' ∉ name.toList)
    (hslash : (⟨inner⟩ : Path).endsWithSlash = true)
    (hrelative : (⟨inner⟩ : Path).isAbsolute = false) :
    tree.destination (directory.join (importedFile unit.path (inner ++ name))) =
      typeFile name hname :: (unit.kind.directory.steps ++ (⟨inner⟩ : Path).steps).foldl Step.apply
        (tree.destination directory) := by
  have hfile := (typeFile name hname).isAbsolute_text
  have hinner := (Path.isAbsolute_join ⟨inner⟩ _ hfile).trans hrelative
  have houter : unit.kind.directory.isAbsolute = false := by
    cases unit.kind <;> decide
  rw [importedFile_eq hunit hname hslash,
    FileTree.destination_join _ _ ((Path.isAbsolute_join _ _ hinner).trans houter),
    Path.steps_join _ _ hinner, Path.steps_join _ _ hfile, FileName.steps_text, ← List.append_assoc,
    List.foldl_append]
  rfl

theorem foldl_entityDir (kind : ContentKind) (here : Location) :
    (kind.directory.steps ++ (⟨kind.entityDir⟩ : Path).steps).foldl Step.apply here = here := by
  cases kind with
  | entity =>
    have hsteps : (⟨""⟩ : Path).steps ++ (⟨"./"⟩ : Path).steps = [.stay] := by decide +kernel
    exact congrArg (·.foldl Step.apply here) hsteps
  | component =>
    have hup : (⟨"../"⟩ : Path).steps = [.up] := by decide +kernel
    have hdown := FileName.steps_text ⟨"components", by decide⟩
    exact congrArg₂ (fun down up => (down ++ up).foldl Step.apply here) hdown hup

theorem foldl_componentDir (kind : ContentKind) (here : Location) :
    (kind.directory.steps ++ (⟨kind.componentDir⟩ : Path).steps).foldl Step.apply here =
      ContentKind.component.directory.steps.foldl Step.apply here := by
  have hstay : (⟨"./"⟩ : Path).steps = [.stay] := by decide +kernel
  cases kind with
  | entity =>
    have hsteps : (⟨""⟩ : Path).steps ++ (⟨"./components/"⟩ : Path).steps =
        .stay :: (⟨"components"⟩ : Path).steps := by decide +kernel
    exact congrArg (·.foldl Step.apply here) hsteps
  | component =>
    rw [List.foldl_append]
    change (⟨"./"⟩ : Path).steps.foldl Step.apply _ = _
    rw [hstay]
    rfl

section
variable {reference : Reference}

theorem Reference.Finds.of_entityDir (hunit : '/' ∉ unit.name.toList) (hname : '/' ∉ name.toList)
    (hpath : reference.need.path = unit.kind.entityDir ++ name)
    (hnames : reference.need.symbols.map (·.name) = [name, flatName name]) :
    reference.Finds unit.path ⟨name ++ ".ts"⟩ name := by
  refine ⟨fun tree directory => ?_, hnames⟩
  have hslash : (⟨unit.kind.entityDir⟩ : Path).endsWithSlash = true := by
    cases unit.kind <;> decide
  have hrelative : (⟨unit.kind.entityDir⟩ : Path).isAbsolute = false := by
    cases unit.kind <;> decide
  rw [hpath, destination_importedFile tree directory hunit hname hslash hrelative, foldl_entityDir]
  exact (tree.destination_join_name directory (typeFile name hname)).symm

theorem Reference.Finds.of_componentDir (hunit : '/' ∉ unit.name.toList)
    (hname : '/' ∉ name.toList) (hpath : reference.need.path = unit.kind.componentDir ++ name)
    (hnames : reference.need.symbols.map (·.name) = [name, flatName name]) :
    reference.Finds unit.path ((⟨"components"⟩ : Path).join ⟨name ++ ".ts"⟩) name := by
  refine ⟨fun tree directory => ?_, hnames⟩
  have hslash : (⟨unit.kind.componentDir⟩ : Path).endsWithSlash = true := by
    cases unit.kind <;> decide
  have hrelative : (⟨unit.kind.componentDir⟩ : Path).isAbsolute = false := by
    cases unit.kind <;> decide
  have hfile := (typeFile name hname).isAbsolute_text
  have hcomponents : ((⟨"components"⟩ : Path).join ⟨(typeFile name hname).text⟩).isAbsolute = false :=
    (Path.isAbsolute_join _ _ hfile).trans (by decide)
  rw [hpath, destination_importedFile tree directory hunit hname hslash hrelative, foldl_componentDir]
  refine (tree.destination_join directory hcomponents).trans ?_ |>.symm
  rw [Path.steps_join _ _ hfile, FileName.steps_text, List.foldl_append]
  rfl

end

-- ---------------------------------------------------------------------------
-- Referenced files
-- ---------------------------------------------------------------------------

namespace Scope

theorem relation_path (scope : Scope) (target : String) :
    (scope.relation target).need.path = scope.kind.entityDir ++ targetName target := by
  unfold relation
  cases scope.kind <;> rfl

theorem relation_names (scope : Scope) (target : String) :
    (scope.relation target).need.symbols.map (·.name) =
      [targetName target, flatName (targetName target)] := by
  unfold relation
  cases scope.kind <;> rfl

theorem component_names (scope : Scope) (uid : String) :
    (scope.component uid).need.symbols.map (·.name) = [typeName uid, flatName (typeName uid)] := by
  change (scope.componentNamed (typeName uid)).need.symbols.map (·.name) = _
  unfold componentNamed
  split <;> rfl

end Scope

/-- The reference leads to the file that is planned for a schema, and imports its two declarations. -/
def Reference.FindsPlanned (reference : Reference) (importing : Path) (tree : FileTree)
    (schema : SchemaFile) : Prop :=
  ∀ file, schema.planned? tree = some file →
    ∃ target, GeneratedUnit.ofFile tree schema.kind schema.path = .ok target ∧
      file.path = target.path ∧ reference.Finds importing file.path target.name

section
variable {tree : FileTree} {text target : String}

theorem relation_finds (hunit : '/' ∉ unit.name.toList) (taken : List String)
    (htarget : targetName target = name) (hname : '/' ∉ name.toList) :
    (Scope.relation ⟨unit.kind, taken⟩ target).Finds unit.path ⟨name ++ ".ts"⟩ name := by
  subst htarget
  exact .of_entityDir hunit hname (Scope.relation_path _ target) (Scope.relation_names _ target)

theorem component_finds (hunit : '/' ∉ unit.name.toList) (taken : List String) {uid : String}
    (huid : typeName uid = name) (hname : '/' ∉ name.toList) :
    (Scope.component ⟨unit.kind, taken⟩ uid).Finds unit.path
      ((⟨"components"⟩ : Path).join ⟨name ++ ".ts"⟩) name := by
  subst huid
  exact .of_componentDir hunit hname Scope.componentNamed_path (Scope.component_names _ uid)

theorem component_finds_planned (hunit : '/' ∉ unit.name.toList) (taken : List String)
    (htext : IsLastPart text) (category : String) {component : ComponentFile}
    (hstem : component.path.stem? = some text) :
    (Scope.component ⟨unit.kind, taken⟩ (category ++ "." ++ text)).FindsPlanned unit.path tree
      (.component component) := by
  intro file hplanned
  obtain ⟨target, htarget, hpath⟩ := SchemaFile.exists_unit_of_planned? hplanned
  refine ⟨target, htarget, hpath, ?_⟩
  obtain ⟨hkind, hname⟩ := component_of_ofFile htarget
  have hstem : (SchemaFile.component component).path.stem?.getD "" = text := by
    rw [SchemaFile.path, hstem, Option.getD_some]
  have hslash : '/' ∉ (pascalCase text).toList :=
    slash_not_mem_pascalCase (hstem ▸ component.path.slash_not_mem_stem)
  rw [hstem] at hname
  rw [hpath, target.path_eq, hkind, hname]
  exact component_finds hunit taken (htext.typeName_append category) hslash

theorem relation_finds_planned (hunit : '/' ∉ unit.name.toList) (taken : List String)
    (htext : IsLastPart text) (hslash : '/' ∉ text.toList) {front : String} {path : Path}
    (huser : isUserTarget (front ++ "." ++ text) = false)
    (hentity : entityName? tree path = some text) :
    (Scope.relation ⟨unit.kind, taken⟩ (front ++ "." ++ text)).FindsPlanned unit.path tree
      (.entity path) := by
  intro file hplanned
  obtain ⟨target, htarget, hpath⟩ := SchemaFile.exists_unit_of_planned? hplanned
  refine ⟨target, htarget, hpath, ?_⟩
  obtain ⟨singular, hsingular, hkind, hname⟩ := entity_of_ofFile htarget
  obtain rfl := Option.some.inj (hentity.symm.trans hsingular)
  have hfound : targetName (front ++ "." ++ text) = pascalCase text := by
    rw [targetName, huser]
    exact htext.typeName_append front
  rw [hpath, hname]
  have hfile := relation_finds hunit taken hfound (slash_not_mem_pascalCase hslash)
  simpa [target.path_eq, hkind, hname, ContentKind.directory, Path.join] using hfile

/-- References lead to the files that are planned. A reference by an identifier that ends with a text
leads to the component whose file is called so, or to the entity with that singular name; the account
entity and media have files of their own. -/
theorem references_find_files (unit : GeneratedUnit) (hunit : '/' ∉ unit.name.toList)
    (taken : List String) :
    let scope : Scope := ⟨unit.kind, taken⟩
    (∀ text : String, IsLastPart text → '/' ∉ text.toList →
      (∀ (category : String) (tree : FileTree) (component : ComponentFile),
        component.path.stem? = some text →
        (scope.component (category ++ "." ++ text)).FindsPlanned unit.path tree
          (.component component)) ∧
      (∀ (front : String) (tree : FileTree) (path : Path),
        isUserTarget (front ++ "." ++ text) = false → entityName? tree path = some text →
        (scope.relation (front ++ "." ++ text)).FindsPlanned unit.path tree (.entity path))) ∧
    (∀ target, isUserTarget target = true →
      (scope.relation target).Finds unit.path ⟨"User.ts"⟩ "User") ∧
    scope.media.Finds unit.path ⟨"Media.ts"⟩ "Media" := by
  refine ⟨fun text htext hslash => ⟨?_, ?_⟩, fun target huser => ?_, ?_⟩
  · intro category tree component hstem
    exact component_finds_planned hunit taken htext category hstem
  · intro front tree path huser hentity
    exact relation_finds_planned hunit taken htext hslash huser hentity
  · exact relation_finds hunit taken (if_pos huser) (by decide)
  · exact .of_entityDir hunit (show '/' ∉ "Media".toList by decide) rfl rfl

def seoSource : String :=
  "\x7b\"info\":\x7b\"singularName\":\"seo-meta\"\x7d,\"attributes\":\x7b\x7d\x7d"

/-- A component with the same name taken refers to both by their files. -/
theorem references_find_files_of_seo :
    let tree := (FileTree.root.writeText ⟨"seo-meta.json"⟩ seoSource).toOption.getD .root
    let page : Path := (⟨"components"⟩ : Path).join ⟨"Page.ts"⟩
    ∃ component entity : PlannedFile,
      SchemaFile.planned? tree (.component ⟨⟨"seo-meta.json"⟩, "shared"⟩) = some component ∧
      SchemaFile.planned? tree (.entity ⟨"seo-meta.json"⟩) = some entity ∧
      (Scope.component ⟨.component, ["SeoMeta"]⟩ "shared.seo-meta").Finds page component.path
        "SeoMeta" ∧
      (Scope.relation ⟨.component, ["SeoMeta"]⟩ "api::seo-meta.seo-meta").Finds page entity.path
        "SeoMeta" := by
  intro tree page
  have hcomponent : (SchemaFile.planned? tree (.component ⟨⟨"seo-meta.json"⟩, "shared"⟩)).isSome := by
    decide +kernel
  have hentity : (SchemaFile.planned? tree (.entity ⟨"seo-meta.json"⟩)).isSome := by decide +kernel
  obtain ⟨component, hcomponent⟩ := Option.isSome_iff_exists.1 hcomponent
  obtain ⟨entity, hentity⟩ := Option.isSome_iff_exists.1 hentity
  refine ⟨component, entity, hcomponent, hentity, ?_⟩
  have hname : pascalCase "seo-meta" = "SeoMeta" := by decide +kernel
  have hpage : (⟨.component, "Page", [], [], []⟩ : GeneratedUnit).path = page := by decide +kernel
  obtain ⟨hfind, -, -⟩ :=
    references_find_files ⟨.component, "Page", [], [], []⟩ (by decide) ["SeoMeta"]
  obtain ⟨hfindComponent, hfindEntity⟩ := hfind "seo-meta" (by decide +kernel) (by decide)
  rw [hpage] at hfindComponent hfindEntity
  constructor
  · obtain ⟨target, htarget, -, hfound⟩ :=
      hfindComponent "shared" tree ⟨⟨"seo-meta.json"⟩, "shared"⟩ (by decide +kernel) component
        hcomponent
    rw [(component_of_ofFile htarget).2] at hfound
    exact hname ▸ hfound
  · obtain ⟨target, htarget, -, hfound⟩ := hfindEntity "api::seo-meta" tree ⟨"seo-meta.json"⟩
      (by decide +kernel) (by decide +kernel) entity hentity
    obtain ⟨singular, hsingular, -, htargetName⟩ := entity_of_ofFile htarget
    have hsame : entityName? tree ⟨"seo-meta.json"⟩ = some "seo-meta" := by decide +kernel
    obtain rfl := Option.some.inj (hsame.symm.trans hsingular)
    rw [htargetName, hname] at hfound
    exact hfound

end

end Declaration

end ContentTypes
