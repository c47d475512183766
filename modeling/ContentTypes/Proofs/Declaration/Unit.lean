import ContentTypes.Proofs.Declaration.References
import ContentTypes.Proofs.Declaration.Registry

/-!
# The parts of a generated unit

The unit of an attribute list has a line for each property, and imports what the references of its
attributes need unless they lead to the unit itself.
-/

namespace ContentTypes.Declaration

open Schema (Attribute AttributeKind)

-- ---------------------------------------------------------------------------
-- The names in an attribute list
-- ---------------------------------------------------------------------------

/-- The names by which the relations and media of an attribute list are known in the file. -/
def boundNames (kind : ContentKind) (attributes : List (String × Attribute)) : List String :=
  attributes.filterMap fun (_, a) => boundName? kind a

/-- The names of the components of an attribute list, without their aliases. -/
def componentNames (attributes : List (String × Attribute)) : List String :=
  attributes.filterMap fun (_, a) => Scope.componentName? a.kind

def entries (kind : ContentKind) (attributes : List (String × Attribute)) : List Reference :=
  attributes.filterMap fun (_, a) => Scope.entryOf? kind a.kind

def unitScope (kind : ContentKind) (name : String) (attributes : List (String × Attribute)) : Scope :=
  ⟨kind, takenNames kind name attributes⟩

def properties (kind : ContentKind) (name : String) (attributes : List (String × Attribute)) :
    List Property :=
  attributes.filterMap fun (key, a) => Property.ofAttribute? (unitScope kind name attributes) key a

def references (kind : ContentKind) (name : String) (attributes : List (String × Attribute)) :
    List Reference :=
  attributes.filterMap fun (_, a) => (unitScope kind name attributes).reference? a.kind

section

variable {kind : ContentKind} {name part : String} {attributes : List (String × Attribute)}
variable {reference : Reference}

theorem boundName?_eq (a : Attribute) :
    boundName? kind a = (Scope.entryOf? kind a.kind).map (·.nested) := by
  obtain ⟨attributeKind, required⟩ := a
  cases attributeKind with
  | relation cardinality target => cases target <;> rfl
  | _ => rfl

theorem mem_boundNames : part ∈ boundNames kind attributes ↔
    ∃ entry ∈ entries kind attributes, entry.nested = part := by
  have heq : boundNames kind attributes = (entries kind attributes).map (·.nested) := by
    simp [boundNames, entries, boundName?_eq, List.map_filterMap]
  rw [heq, List.mem_map]

theorem mem_takenNames : part ∈ takenNames kind name attributes ↔
    (kind = .entity ∧ part = name) ∨ part ∈ boundNames kind attributes := by
  cases kind <;> simp [takenNames, boundNames]

theorem mem_references : reference ∈ references kind name attributes ↔
    reference ∈ entries kind attributes ∨ ∃ part ∈ componentNames attributes,
      (unitScope kind name attributes).componentNamed part = reference := by
  simp only [references, entries, componentNames, List.mem_filterMap,
    Scope.reference?_eq]
  constructor
  · rintro ⟨member, hmem, h⟩
    cases hentry : Scope.entryOf? kind member.2.kind with
    | some entry =>
      obtain rfl : entry = reference := by simpa [unitScope, hentry] using h
      exact .inl ⟨member, hmem, hentry⟩
    | none =>
      simp only [unitScope, hentry] at h
      obtain ⟨part, hpart, rfl⟩ := Option.map_eq_some_iff.1 (by simpa using h)
      exact .inr ⟨part, ⟨member, hmem, hpart⟩, rfl⟩
  · rintro (⟨member, hmem, h⟩ | ⟨part, ⟨member, hmem, h⟩, rfl⟩)
    · exact ⟨member, hmem, by simp [unitScope, h]⟩
    · exact ⟨member, hmem, by simp [Scope.entryOf?_eq_none h, unitScope, h]⟩

theorem isEntry_of_mem_entries (h : reference ∈ entries kind attributes) :
    Scope.IsEntry kind reference := by
  obtain ⟨member, -, hentry⟩ := List.mem_filterMap.1 h
  exact ⟨_, hentry⟩

theorem isTypeName_of_mem_componentNames (h : part ∈ componentNames attributes) :
    IsTypeName part := by
  obtain ⟨member, -, hpart⟩ := List.mem_filterMap.1 h
  exact Scope.isTypeName_componentName? hpart

theorem isFormed_of_mem_references (h : reference ∈ references kind name attributes) :
    reference.IsFormed := by
  rcases mem_references.1 h with h | ⟨part, hpart, rfl⟩
  · exact (isEntry_of_mem_entries h).isFormed
  · exact Scope.isFormed_componentNamed (isTypeName_of_mem_componentNames hpart)

def foreignReferences (kind : ContentKind) (name : String) (attributes : List (String × Attribute)) :
    List Reference :=
  (references kind name attributes).filter fun reference =>
    reference.need.path ≠ kind.ownPath name

theorem mem_foreignReferences : reference ∈ foreignReferences kind name attributes ↔
    reference ∈ references kind name attributes ∧ reference.need.path ≠ kind.ownPath name := by
  simp [foreignReferences]

theorem isFormed_of_mem_foreignReferences (h : reference ∈ foreignReferences kind name attributes) :
    reference.IsFormed :=
  isFormed_of_mem_references (mem_foreignReferences.1 h).1

theorem entry_mem_foreignReferences (h : reference ∈ entries kind attributes) :
    reference ∈ foreignReferences kind name attributes ↔
      (kind = .entity → reference.nested ≠ name) := by
  rw [mem_foreignReferences, ne_eq, (isEntry_of_mem_entries h).path_eq_ownPath, not_and]
  exact and_iff_right (mem_references.2 (.inl h))

theorem componentNamed_mem_foreignReferences (hname : IsTypeName name)
    (h : part ∈ componentNames attributes) :
    (unitScope kind name attributes).componentNamed part ∈
        foreignReferences kind name attributes ↔ (kind = .component → part ≠ name) := by
  have hmem : (unitScope kind name attributes).componentNamed part ∈
      references kind name attributes := mem_references.2 (.inr ⟨part, h, rfl⟩)
  have hpath : ((unitScope kind name attributes).componentNamed part).need.path =
      kind.ownPath name ↔ kind = .component ∧ part = name :=
    Scope.componentNamed_path_eq_ownPath hname
  rw [mem_foreignReferences, and_iff_right hmem, ne_eq, hpath, not_and]

end

-- ---------------------------------------------------------------------------
-- Imports and lines
-- ---------------------------------------------------------------------------

namespace GeneratedUnit

variable {kind : ContentKind} {name key : String} {attributes : List (String × Attribute)}

theorem foldl_addProperty (unit : GeneratedUnit) (properties : List Property) :
    properties.foldl addProperty unit =
      { unit with
        imports := (((properties.filterMap (·.need?)).filter fun need =>
          need.path ≠ unit.kind.ownPath unit.name).foldl ImportRegistry.insert ⟨unit.imports⟩).needs
        nested := unit.nested ++ properties.map (·.nestedLine)
        flat := unit.flat ++ properties.map (·.flatLine) } := by
  induction properties generalizing unit with
  | nil => simp
  | cons property properties ih =>
    rw [List.foldl_cons, ih]
    cases hneed : property.need? with
    | none => simp [addProperty, hneed]
    | some need =>
      by_cases hown : need.path = unit.kind.ownPath unit.name
      · simp [addProperty, hneed, hown]
      · simp [addProperty, hneed, hown]

theorem ofAttribute?_need (scope : Scope) (a : Attribute) :
    ((Property.ofAttribute? scope key a).bind (·.need?)) =
      (scope.reference? a.kind).map (·.need) := by
  obtain ⟨attributeKind, required⟩ := a
  cases attributeKind with
  | relation cardinality target => cases target <;> rfl
  | _ => rfl

theorem needs_properties : (properties kind name attributes).filterMap (·.need?) =
    (references kind name attributes).map (·.need) := by
  simp only [properties, references, List.filterMap_filterMap, List.map_filterMap,
    ofAttribute?_need]

theorem foreignNeeds_properties :
    ((properties kind name attributes).filterMap (·.need?)).filter (·.path ≠ kind.ownPath name) =
      (foreignReferences kind name attributes).map (·.need) := by
  rw [needs_properties, List.filter_map]
  rfl

theorem ofAttributes_eq : ofAttributes kind name attributes =
    { kind, name
      imports := (((foreignReferences kind name attributes).map (·.need)).foldl
        ImportRegistry.insert .empty).needs
      nested := (properties kind name attributes).map (·.nestedLine)
      flat := (properties kind name attributes).map (·.flatLine) } := by
  rw [← foreignNeeds_properties]
  exact foldl_addProperty ⟨kind, name, [], [], []⟩ (properties kind name attributes)

@[simp] theorem ofAttributes_kind : (ofAttributes kind name attributes).kind = kind := by
  rw [ofAttributes_eq]

@[simp] theorem ofAttributes_name : (ofAttributes kind name attributes).name = name := by
  rw [ofAttributes_eq]

-- ---------------------------------------------------------------------------
-- What the imports bind
-- ---------------------------------------------------------------------------

def importedNames (unit : GeneratedUnit) : List String :=
  unit.imports.flatMap fun need => need.symbols.map (·.localName)

theorem importedNames_eq (unit : GeneratedUnit) :
    unit.importedNames = (ImportRegistry.bindings ⟨unit.imports⟩).map (·.2.localName) := by
  simp [importedNames, ImportRegistry.bindings, List.map_flatMap, Function.comp_def]

variable {path : String} {symbol : ImportSymbol}

theorem mem_bindings_imports :
    (path, symbol) ∈ ImportRegistry.bindings ⟨(ofAttributes kind name attributes).imports⟩ ↔
      ∃ reference ∈ foreignReferences kind name attributes,
        reference.need.path = path ∧ symbol ∈ reference.need.symbols := by
  rw [ofAttributes_eq, ImportRegistry.mem_bindings_foldl_insert]
  simp [ImportRegistry.bindings, ImportRegistry.empty]

theorem isTidy_imports : ImportRegistry.IsTidy ⟨(ofAttributes kind name attributes).imports⟩ := by
  rw [ofAttributes_eq]
  refine ImportRegistry.isTidy_empty.foldl_insert fun need hneed => ?_
  obtain ⟨reference, hmem, rfl⟩ := List.mem_map.1 hneed
  exact (isFormed_of_mem_foreignReferences hmem).nodup_locals.of_map

theorem mem_paths_imports :
    path ∈ (ofAttributes kind name attributes).imports.map (·.path) ↔
      ∃ reference ∈ foreignReferences kind name attributes, reference.need.path = path := by
  rw [ofAttributes_eq]
  refine ImportRegistry.mem_paths_foldl_insert.trans ?_
  simp [ImportRegistry.paths, ImportRegistry.empty]

theorem ownPath_not_mem_imports :
    kind.ownPath name ∉ (ofAttributes kind name attributes).imports.map (·.path) := by
  rw [mem_paths_imports]
  rintro ⟨reference, href, hpath⟩
  exact (mem_foreignReferences.1 href).2 hpath

variable {part : String}

theorem mem_importedNames :
    part ∈ (ofAttributes kind name attributes).importedNames ↔
      ∃ reference ∈ foreignReferences kind name attributes,
        part = reference.nested ∨ part = flatName reference.nested := by
  rw [importedNames_eq, List.mem_map]
  constructor
  · rintro ⟨⟨path, symbol⟩, hbind, rfl⟩
    obtain ⟨reference, href, -, hsymbol⟩ := mem_bindings_imports.1 hbind
    have hlocal := (isFormed_of_mem_foreignReferences href).mem_locals.1 (List.mem_map_of_mem hsymbol)
    exact ⟨reference, href, hlocal⟩
  · rintro ⟨reference, href, hlocal⟩
    obtain ⟨symbol, hsymbol, rfl⟩ :=
      List.mem_map.1 ((isFormed_of_mem_foreignReferences href).mem_locals.2 hlocal)
    exact ⟨(_, symbol), mem_bindings_imports.2 ⟨reference, href, rfl, hsymbol⟩, rfl⟩

theorem mem_importedNames_of_isTypeName (hpart : IsTypeName part) :
    part ∈ (ofAttributes kind name attributes).importedNames ↔
      ∃ reference ∈ foreignReferences kind name attributes, reference.nested = part := by
  rw [mem_importedNames]
  constructor
  · rintro ⟨reference, href, rfl | hflat⟩
    · exact ⟨reference, href, rfl⟩
    · exact absurd hflat (ne_flatName hpart.unseparated)
  · rintro ⟨reference, href, rfl⟩
    exact ⟨reference, href, .inl rfl⟩

theorem flatName_mem_importedNames :
    flatName part ∈ (ofAttributes kind name attributes).importedNames ↔
      ∃ reference ∈ foreignReferences kind name attributes, reference.nested = part := by
  rw [mem_importedNames]
  constructor
  · rintro ⟨reference, href, hnested | hflat⟩
    · have hformed := isFormed_of_mem_foreignReferences href
      exact absurd hnested.symm (ne_flatName hformed.nested.unseparated)
    · exact ⟨reference, href, (flatName_injective hflat).symm⟩
  · rintro ⟨reference, href, rfl⟩
    exact ⟨reference, href, .inr rfl⟩

end GeneratedUnit

end ContentTypes.Declaration
