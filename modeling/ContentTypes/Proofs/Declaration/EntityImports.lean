import ContentTypes.Proofs.Declaration.Closed

/-!
# The imports of an entity file

What an entity file imports can be read off its attributes one by one: a relation or media asks for the
file of its type unless that is the entity itself, a component asks for its file and gets an alias if the
entity, a relation or media has its name (`entityNeed?`). Needs for one path are always the same, so the
file has the first of each path and merging adds nothing: `ofEntity_imports`.
-/

namespace ContentTypes.Declaration

open Schema (Attribute AttributeKind Document)

def relationType? : AttributeKind → Option String
  | .relation _ (some target) => some (targetName target)
  | _ => none

def isMedia : AttributeKind → Bool
  | .media _ => true
  | _ => false

def relationTypes (attributes : List (String × Attribute)) : List String :=
  attributes.filterMap fun (_, a) => relationType? a.kind

def hasMedia (attributes : List (String × Attribute)) : Bool :=
  attributes.any fun (_, a) => isMedia a.kind

/-- Whether an entity called `name` has the name `type` for something else than a component. -/
def IsNameTaken (name : String) (attributes : List (String × Attribute)) (type : String) : Prop :=
  type = name ∨ type ∈ relationTypes attributes ∨ type = "Media" ∧ hasMedia attributes

instance (name : String) (attributes : List (String × Attribute)) (type : String) :
    Decidable (IsNameTaken name attributes type) :=
  inferInstanceAs (Decidable (_ ∨ _ ∨ _))

def plainNeed (path type : String) : ImportNeed :=
  ⟨path, [⟨type, none⟩, ⟨flatName type, none⟩]⟩

def renamedNeed (path type other : String) : ImportNeed :=
  ⟨path, [⟨type, some other⟩, ⟨flatName type, some (flatName other)⟩]⟩

/-- The import of a component, which has an alias if the entity has its name for something else. -/
def componentNeed (name : String) (attributes : List (String × Attribute)) (type : String) :
    ImportNeed :=
  if IsNameTaken name attributes type then
    renamedNeed ("./components/" ++ type) type (type ++ "Component")
  else plainNeed ("./components/" ++ type) type

def entryNeed? (name type : String) : Option ImportNeed :=
  if type = name then none else some (plainNeed ("./" ++ type) type)

def entityNeed? (name : String) (attributes : List (String × Attribute)) :
    AttributeKind → Option ImportNeed
  | .relation _ (some target) => entryNeed? name (targetName target)
  | .media _ => entryNeed? name mediaName
  | .component uid _ => some (componentNeed name attributes (typeName uid))
  | _ => none

def entityNeeds (name : String) (attributes : List (String × Attribute)) : List ImportNeed :=
  attributes.filterMap fun (_, a) => entityNeed? name attributes a.kind

variable {name type : String} {attributes : List (String × Attribute)}

-- ---------------------------------------------------------------------------
-- Attribute by attribute
-- ---------------------------------------------------------------------------

theorem boundName?_entity (a : Attribute) : boundName? .entity a = some type ↔
    relationType? a.kind = some type ∨ type = "Media" ∧ isMedia a.kind := by
  obtain ⟨attributeKind, required⟩ := a
  cases attributeKind with
  | relation cardinality target =>
    cases target <;> simp [boundName?, relationType?, isMedia, Scope.relation, Reference.direct]
  | media multiple => simp [boundName?, relationType?, isMedia, mediaName, eq_comm]
  | _ => simp [boundName?, relationType?, isMedia]

theorem mem_boundNames_entity : type ∈ boundNames .entity attributes ↔
    type ∈ relationTypes attributes ∨ type = "Media" ∧ hasMedia attributes := by
  simp only [boundNames, relationTypes, hasMedia, List.mem_filterMap, List.any_eq_true,
    boundName?_entity, ← exists_and_left, ← exists_or, and_or_left, and_left_comm]

theorem mem_takenNames_entity :
    type ∈ takenNames .entity name attributes ↔ IsNameTaken name attributes type := by
  rw [mem_takenNames, mem_boundNames_entity]
  simp [IsNameTaken]

def foreignNeed? (name : String) (reference : Reference) : Option ImportNeed :=
  if reference.need.path = ContentKind.entity.ownPath name then none else some reference.need

theorem foreignNeed?_direct :
    foreignNeed? name (.direct type ("./" ++ type)) = entryNeed? name type := by
  have hpath : (Reference.direct type ("./" ++ type)).need.path = ContentKind.entity.ownPath name ↔
      type = name := String.append_right_inj "./"
  unfold foreignNeed? entryNeed?
  by_cases h : type = name
  · rw [if_pos h, if_pos (hpath.2 h)]
  · rw [if_neg h, if_neg (mt hpath.1 h)]
    rfl

theorem foreignNeed?_component (hname : IsTypeName name) :
    foreignNeed? name ((unitScope .entity name attributes).componentNamed type) =
      some (componentNeed name attributes type) := by
  have hforeign : ((unitScope .entity name attributes).componentNamed type).need.path ≠
      ContentKind.entity.ownPath name := fun h =>
    nomatch ((Scope.componentNamed_path_eq_ownPath hname).1 h).1
  rw [foreignNeed?, if_neg hforeign]
  unfold Scope.componentNamed componentNeed
  by_cases htaken : IsNameTaken name attributes type
  · have hmem : type ∈ (unitScope .entity name attributes).taken := mem_takenNames_entity.2 htaken
    rw [if_pos htaken, if_pos hmem]
    rfl
  · have hmem : type ∉ (unitScope .entity name attributes).taken :=
      mt mem_takenNames_entity.1 htaken
    rw [if_neg htaken, if_neg hmem]
    rfl

theorem entityNeed?_eq (hname : IsTypeName name) (attributeKind : AttributeKind) :
    entityNeed? name attributes attributeKind =
      ((unitScope .entity name attributes).reference? attributeKind).bind (foreignNeed? name) := by
  cases attributeKind with
  | relation cardinality target =>
    cases target with
    | none => rfl
    | some target => exact foreignNeed?_direct.symm
  | media multiple =>
    have h : foreignNeed? name (.direct mediaName ("./" ++ mediaName)) = entryNeed? name mediaName :=
      foreignNeed?_direct
    exact h.symm
  | component uid repeatable =>
    have href : (unitScope .entity name attributes).reference? (.component uid repeatable) =
        some ((unitScope .entity name attributes).componentNamed (typeName uid)) := rfl
    rw [href, Option.bind_some, foreignNeed?_component hname]
    rfl
  | _ => rfl

theorem needs_foreignReferences (hname : IsTypeName name) :
    (foreignReferences .entity name attributes).map (·.need) = entityNeeds name attributes := by
  have hforeign : (foreignReferences .entity name attributes).map (·.need) =
      (references .entity name attributes).filterMap (foreignNeed? name) := by
    unfold foreignReferences
    induction references .entity name attributes with
    | nil => rfl
    | cons reference rest ih =>
      by_cases h : reference.need.path = ContentKind.entity.ownPath name
      · simpa [foreignNeed?, h] using ih
      · simpa [foreignNeed?, h] using ih
  rw [hforeign, references, List.filterMap_filterMap, entityNeeds]
  simp only [entityNeed?_eq hname]

-- ---------------------------------------------------------------------------
-- One need for each path
-- ---------------------------------------------------------------------------

theorem componentNeed_path : (componentNeed name attributes type).path = "./components/" ++ type := by
  unfold componentNeed
  split <;> rfl

theorem entityNeed?_cases {attributeKind : AttributeKind} {need : ImportNeed}
    (h : entityNeed? name attributes attributeKind = some need) :
    (∃ type, IsTypeName type ∧ need = plainNeed ("./" ++ type) type) ∨
      ∃ type, need = componentNeed name attributes type := by
  have hentry : ∀ type, IsTypeName type → entryNeed? name type = some need →
      ∃ type, IsTypeName type ∧ need = plainNeed ("./" ++ type) type := by
    intro type htype hneed
    unfold entryNeed? at hneed
    split at hneed
    · cases hneed
    · exact ⟨type, htype, (Option.some.inj hneed).symm⟩
  unfold entityNeed? at h
  split at h
  · rename_i target
    exact .inl (hentry _ (isTypeName_targetName target) h)
  · exact .inl (hentry _ isTypeName_mediaName h)
  · exact .inr ⟨_, (Option.some.inj h).symm⟩
  · cases h

theorem plainNeed_path_ne (htype : IsTypeName type) (other : String) :
    (plainNeed ("./" ++ type) type).path ≠ (componentNeed name attributes other).path := by
  rw [componentNeed_path]
  exact ContentKind.entity.entityDir_append_ne htype

theorem agree_entityNeeds : ImportRegistry.Agree (entityNeeds name attributes) := by
  intro need hneed other hother hpath
  obtain ⟨member, -, hneed⟩ := List.mem_filterMap.1 hneed
  obtain ⟨member', -, hother⟩ := List.mem_filterMap.1 hother
  rcases entityNeed?_cases hneed with ⟨type, htype, rfl⟩ | ⟨type, rfl⟩ <;>
    rcases entityNeed?_cases hother with ⟨type', htype', rfl⟩ | ⟨type', rfl⟩
  · obtain rfl : type = type' := (String.append_right_inj "./").1 hpath
    rfl
  · exact absurd hpath (plainNeed_path_ne htype type')
  · exact absurd hpath.symm (plainNeed_path_ne htype' type)
  · rw [componentNeed_path, componentNeed_path] at hpath
    obtain rfl : type = type' := (String.append_right_inj "./components/").1 hpath
    rfl

-- ---------------------------------------------------------------------------
-- Entity files
-- ---------------------------------------------------------------------------

namespace GeneratedUnit

theorem ofEntity_eq_ok {source : String} {unit : GeneratedUnit} :
    ofEntity source = .ok unit ↔ ∃ document text, Document.ofText source = .ok document ∧
      document.singularName? = some text ∧
      ofAttributes .entity (pascalCase text) document.attributes = unit := by
  unfold ofEntity
  rw [bind_eq_ok]
  cases Document.ofText source with
  | error error => simp [Except.mapError]
  | ok document =>
    cases htext : document.singularName? <;> simp [Except.mapError, htext]

theorem imports_entity (hname : IsTypeName name) :
    (ofAttributes .entity name attributes).imports =
      ImportRegistry.firstNeeds (entityNeeds name attributes) := by
  rw [ofAttributes_eq, needs_foreignReferences hname]
  exact ImportRegistry.foldl_insert_empty agree_entityNeeds

theorem binds_entity (hname : IsTypeName name) {key : String} {a : Attribute} {reference : Reference}
    (hmem : (key, a) ∈ attributes)
    (h : (unitScope .entity name attributes).reference? a.kind = some reference) :
    (ofAttributes .entity name attributes).Binds reference := by
  have href : reference ∈ references .entity name attributes :=
    List.mem_filterMap.2 ⟨(key, a), hmem, h⟩
  refine (binds_iff href).2 fun hown => ?_
  rcases mem_references.1 href with hentry | ⟨part, -, rfl⟩
  · exact ((isEntry_of_mem_entries hentry).path_eq_ownPath.1 hown).2
  · cases ((Scope.componentNamed_path_eq_ownPath hname).1 hown).1

/-- An entity file registers what its attributes ask for and imports the first of each path: no need that
comes later adds a symbol to an earlier one. It does not import itself, has one statement for each path,
and its lines use names that are bound. -/
theorem ofEntity_imports {source : String} {unit : GeneratedUnit} (h : ofEntity source = .ok unit) :
    ∃ document text, Document.ofText source = .ok document ∧ document.singularName? = some text ∧
      unit.name = pascalCase text ∧
      ((properties .entity unit.name document.attributes).filterMap (·.need?)).filter
          (·.path ≠ "./" ++ unit.name) = entityNeeds unit.name document.attributes ∧
      unit.imports = ImportRegistry.firstNeeds (entityNeeds unit.name document.attributes) ∧
      "./" ++ unit.name ∉ unit.imports.map (·.path) ∧
      (unit.imports.map (·.path)).Nodup ∧
      (∀ earlier need, earlier ++ [need] <+: entityNeeds unit.name document.attributes →
        let registry := earlier.foldl ImportRegistry.insert .empty
        need.path ∈ registry.paths → registry.insert need = registry) ∧
      ∀ key a reference, (key, a) ∈ document.attributes →
        (unitScope .entity unit.name document.attributes).reference? a.kind = some reference →
          unit.Shows key a reference ∧ unit.Binds reference := by
  obtain ⟨document, text, hdocument, htext, rfl⟩ := ofEntity_eq_ok.1 h
  have hname := isTypeName_pascalCase text
  rw [ofAttributes_name]
  refine ⟨document, text, hdocument, htext, rfl,
    foreignNeeds_properties.trans (needs_foreignReferences hname), imports_entity hname,
    ownPath_not_mem_imports, isTidy_imports.paths, ?_, ?_⟩
  · intro earlier need hfront
    exact ImportRegistry.insert_foldl_insert (agree_entityNeeds.sublist hfront.sublist)
  · intro key a reference hmem href
    exact ⟨shows_of_reference? hmem href, binds_entity hname hmem href⟩

def tagSource : String :=
  "\x7b\"info\":\x7b\"singularName\":\"tag\"\x7d,\"attributes\":\x7b"
    ++ "\"up\":\x7b\"type\":\"relation\",\"target\":\"tag\"\x7d,"
    ++ "\"badge\":\x7b\"type\":\"component\",\"component\":\"a.tag\"\x7d,"
    ++ "\"cover\":\x7b\"type\":\"media\"\x7d\x7d\x7d"

def tagDocument : Document where
  info := some { singularName := some "tag" }
  attributes := [
    ("up", ⟨.relation .oneToOne (some "tag"), none⟩),
    ("badge", ⟨.component "a.tag" false, none⟩),
    ("cover", ⟨.media false, none⟩)]

/-- The component is renamed, and the tag itself is not imported. -/
theorem ofEntity_tagSource :
    ∃ unit, ofEntity tagSource = .ok unit ∧ unit.name = "Tag" ∧ unit.imports =
      [renamedNeed "./components/Tag" "Tag" "TagComponent", plainNeed "./Media" "Media"] := by
  have hdocument : Document.ofText tagSource = .ok tagDocument := by decide +kernel
  have htext : tagDocument.singularName? = some "tag" := by decide +kernel
  have hname : pascalCase "tag" = "Tag" := by decide +kernel
  have hunit : ofEntity tagSource = .ok (ofAttributes .entity "Tag" tagDocument.attributes) :=
    ofEntity_eq_ok.2 ⟨_, _, hdocument, htext, hname ▸ rfl⟩
  obtain ⟨document, text, hsame, -, -, -, himports, -⟩ := ofEntity_imports hunit
  obtain rfl := Except.ok.inj (hdocument.symm.trans hsame)
  rw [ofAttributes_name] at himports
  exact ⟨_, hunit, ofAttributes_name, himports.trans (by decide +kernel)⟩

end GeneratedUnit

end ContentTypes.Declaration
