import ContentTypes.Declaration.Unit
import ContentTypes.Proofs.Declaration.Unit
import ContentTypes.Proofs.Outcome

/-!
# Names bound in a component file

The lines of a component file use the names of references. A name is bound if the file imports it, or if
it is that of the declared type. A component that holds itself is not imported, and so its name must not
be an alias: this fails when a relation or media has the name of the component's own type.
-/

namespace ContentTypes.Declaration

open Schema (Attribute AttributeKind Document)

namespace GeneratedUnit

/-- Whether the file of a unit binds both names of a reference, by its own declarations or by the
statement that imports the reference's path. -/
def Binds (unit : GeneratedUnit) (reference : Reference) : Prop :=
  (reference.need.path = unit.kind.ownPath unit.name ∧ reference.nested = unit.name ∧
    reference.flat = flatName unit.name) ∨
  ∃ need ∈ unit.imports, need.path = reference.need.path ∧
    reference.nested ∈ need.symbols.map (·.localName) ∧
    reference.flat ∈ need.symbols.map (·.localName)

/-- Whether a unit has the two lines of an attribute, in which the reference's names stand for the
type: in an envelope or not, and as an array or not. -/
def Shows (unit : GeneratedUnit) (key : String) (a : Attribute) (reference : Reference) : Prop :=
  ∃ many types, (types = TypePair.enveloped reference many ∨
      types = TypePair.embedded reference many) ∧
    propertyKey key a.isOptional ++ ": " ++ types.nested ++ ";" ∈ unit.nested ∧
    propertyKey key a.isOptional ++ ": " ++ types.flat ++ ";" ∈ unit.flat

variable {kind : ContentKind} {name key : String} {attributes : List (String × Attribute)}
variable {reference : Reference}

-- ---------------------------------------------------------------------------
-- Lines
-- ---------------------------------------------------------------------------

theorem ofKind?_of_reference? {scope : Scope} {attributeKind : AttributeKind}
    (h : scope.reference? attributeKind = some reference) :
    ∃ many types, (types = TypePair.enveloped reference many ∨
        types = TypePair.embedded reference many) ∧
      TypePair.ofKind? scope attributeKind = some types := by
  unfold Scope.reference? at h
  split at h
  · rename_i cardinality target
    obtain rfl := Option.some.inj h
    exact ⟨cardinality.isToMany, _, .inl rfl, rfl⟩
  · rename_i uid repeatable
    obtain rfl := Option.some.inj h
    exact ⟨repeatable, _, .inr rfl, rfl⟩
  · rename_i multiple
    obtain rfl := Option.some.inj h
    exact ⟨multiple, _, .inl rfl, rfl⟩
  · cases h

theorem shows_of_reference? {a : Attribute} (hmem : (key, a) ∈ attributes)
    (h : (unitScope kind name attributes).reference? a.kind = some reference) :
    (ofAttributes kind name attributes).Shows key a reference := by
  obtain ⟨many, types, htypes, hkind⟩ := ofKind?_of_reference? h
  have hproperty : (⟨propertyKey key a.isOptional, types.nested, types.flat, types.need?⟩ : Property) ∈
      properties kind name attributes :=
    List.mem_filterMap.2 ⟨(key, a), hmem, by simp [Property.ofAttribute?, hkind]⟩
  rw [ofAttributes_eq]
  exact ⟨many, types, htypes, List.mem_map.2 ⟨_, hproperty, rfl⟩,
    List.mem_map.2 ⟨_, hproperty, rfl⟩⟩

-- ---------------------------------------------------------------------------
-- Bindings
-- ---------------------------------------------------------------------------

theorem binds_of_mem_foreignReferences (h : reference ∈ foreignReferences kind name attributes) :
    (ofAttributes kind name attributes).Binds reference := by
  have hlocals := (isFormed_of_mem_foreignReferences h).locals
  have hneed : ∀ part ∈ reference.need.symbols.map (·.localName),
      ∃ need ∈ (ofAttributes kind name attributes).imports, need.path = reference.need.path ∧
        part ∈ need.symbols.map (·.localName) := by
    intro part hpart
    obtain ⟨symbol, hsymbol, rfl⟩ := List.mem_map.1 hpart
    obtain ⟨need, hneed, hpath, hmem⟩ :=
      ImportRegistry.mem_bindings.1 (mem_bindings_imports.2 ⟨reference, h, rfl, hsymbol⟩)
    exact ⟨need, hneed, hpath, List.mem_map_of_mem hmem⟩
  obtain ⟨need, hmem, hpath, hnested⟩ := hneed reference.nested (by simp [hlocals])
  obtain ⟨need', hmem', hpath', hflat⟩ := hneed reference.flat (by simp [hlocals])
  obtain rfl := isTidy_imports.eq_of_path hmem hmem' (hpath.trans hpath'.symm)
  exact .inr ⟨need, hmem, hpath, hnested, hflat⟩

theorem binds_iff (h : reference ∈ references kind name attributes) :
    (ofAttributes kind name attributes).Binds reference ↔
      (reference.need.path = kind.ownPath name → reference.nested = name) := by
  have hformed := isFormed_of_mem_references h
  by_cases hown : reference.need.path = kind.ownPath name
  · constructor
    · rintro (⟨-, hnested, -⟩ | ⟨need, hneed, hpath, -⟩) _
      · simpa using hnested
      · exact absurd (List.mem_map.2 ⟨need, hneed, hpath.trans hown⟩) ownPath_not_mem_imports
    · intro hnested
      refine .inl ⟨by simpa using hown, by simpa using hnested hown, ?_⟩
      rw [hformed.flat, hnested hown, ofAttributes_name]
  · exact iff_of_true (binds_of_mem_foreignReferences (mem_foreignReferences.2 ⟨h, hown⟩))
      fun h => absurd h hown

theorem componentNamed_nested_eq_iff :
    ((unitScope .component name attributes).componentNamed name).nested = name ↔
      name ∉ boundNames .component attributes := by
  have htaken : (unitScope .component name attributes).taken = boundNames .component attributes :=
    rfl
  rw [Scope.componentNamed_nested, htaken]
  split
  · rename_i hbound
    refine iff_of_false (fun h => ?_) (not_not_intro hbound)
    simpa using congrArg String.length h
  · rename_i hfree
    exact iff_of_true rfl hfree

theorem binds_iff_of_component {a : Attribute} (hname : IsTypeName name)
    (hmem : (key, a) ∈ attributes)
    (h : (unitScope .component name attributes).reference? a.kind = some reference) :
    (ofAttributes .component name attributes).Binds reference ↔
      (Scope.componentName? a.kind = some name → name ∉ boundNames .component attributes) := by
  have href : reference ∈ references .component name attributes :=
    List.mem_filterMap.2 ⟨(key, a), hmem, h⟩
  rw [binds_iff href]
  rw [Scope.reference?_eq] at h
  cases hpart : Scope.componentName? a.kind with
  | none =>
    have hentry : Scope.IsEntry .component reference := ⟨a.kind, by simpa [hpart, unitScope] using h⟩
    refine iff_of_true (fun hown => ?_) (fun hnone => ?_)
    · cases (hentry.path_eq_ownPath.1 hown).1
    · cases hnone
  | some part =>
    rw [Scope.entryOf?_eq_none hpart, hpart] at h
    obtain rfl : (unitScope .component name attributes).componentNamed part = reference := by
      simpa using h
    have hown : ((unitScope .component name attributes).componentNamed part).need.path =
        ContentKind.component.ownPath name ↔ part = name :=
      (Scope.componentNamed_path_eq_ownPath hname).trans (and_iff_right rfl)
    rw [hown, Option.some.injEq]
    refine forall_congr' ?_
    rintro rfl
    exact componentNamed_nested_eq_iff

theorem closed_iff (hname : IsTypeName name) :
    (∀ reference ∈ references .component name attributes,
        (ofAttributes .component name attributes).Binds reference) ↔
      name ∉ componentNames attributes ∨ name ∉ boundNames .component attributes := by
  constructor
  · intro hbinds
    refine or_iff_not_imp_left.2 fun hnot => ?_
    obtain ⟨⟨key, a⟩, hmem, hself : Scope.componentName? a.kind = some name⟩ :=
      List.mem_filterMap.1 (not_not.1 hnot)
    have href : (unitScope .component name attributes).reference? a.kind =
        some ((unitScope .component name attributes).componentNamed name) := by
      rw [Scope.reference?_eq, Scope.entryOf?_eq_none hself, hself]
      rfl
    exact (binds_iff_of_component hname hmem href).1
      (hbinds _ (List.mem_filterMap.2 ⟨(key, a), hmem, href⟩)) hself
  · intro hfree reference href
    obtain ⟨⟨key, a⟩, hmem, href⟩ := List.mem_filterMap.1 href
    refine (binds_iff_of_component hname hmem href).2 fun hself => hfree.resolve_left ?_
    exact not_not_intro (List.mem_filterMap.2 ⟨(key, a), hmem, hself⟩)

-- ---------------------------------------------------------------------------
-- Component files
-- ---------------------------------------------------------------------------

theorem ofComponent_eq_ok {source stem : String} {unit : GeneratedUnit} :
    ofComponent source stem = .ok unit ↔ ∃ document, Document.ofText source = .ok document ∧
      ofAttributes .component (pascalCase stem) document.attributes = unit := by
  unfold ofComponent
  rw [bind_eq_ok]
  cases Document.ofText source <;> simp [Except.mapError]

/-- The file of a component does not import itself, and its lines show the references of the attributes
by their names. Those of a reference are bound unless the component holds itself and a relation or media
has the name of the component; and so all are bound unless both are in the list. -/
theorem ofComponent_closed_iff {source stem : String} {unit : GeneratedUnit}
    (h : ofComponent source stem = .ok unit) :
    ∃ document, Document.ofText source = .ok document ∧ unit.name = pascalCase stem ∧
      ContentKind.component.ownPath unit.name ∉ unit.imports.map (·.path) ∧
      (∀ key a reference, (key, a) ∈ document.attributes →
        (unitScope .component unit.name document.attributes).reference? a.kind = some reference →
          unit.Shows key a reference ∧
          (unit.Binds reference ↔ (Scope.componentName? a.kind = some unit.name →
            unit.name ∉ boundNames .component document.attributes))) ∧
      ((∀ reference ∈ references .component unit.name document.attributes, unit.Binds reference) ↔
        unit.name ∉ componentNames document.attributes ∨
          unit.name ∉ boundNames .component document.attributes) := by
  obtain ⟨document, hdocument, rfl⟩ := ofComponent_eq_ok.1 h
  have hname := isTypeName_pascalCase stem
  rw [ofAttributes_name]
  refine ⟨document, hdocument, rfl, ownPath_not_mem_imports, ?_, closed_iff hname⟩
  intro key a reference hmem href
  exact ⟨shows_of_reference? hmem href, binds_iff_of_component hname hmem href⟩

def mediaSource : String :=
  "\x7b\"attributes\":\x7b\"cover\":\x7b\"type\":\"media\"\x7d,"
    ++ "\"child\":\x7b\"type\":\"component\",\"component\":\"menu.media\"\x7d\x7d\x7d"

/-- A component with the name of media that holds itself and an upload refers to itself by an alias that
nothing binds. -/
theorem ofComponent_mediaSource :
    ∃ unit, ofComponent mediaSource "media" = .ok unit ∧
      unit.Shows "child" ⟨.component "menu.media" false, none⟩
        (.aliased "Media" "MediaComponent" "./Media") ∧
      ¬unit.Binds (.aliased "Media" "MediaComponent" "./Media") := by
  have hdocument : Document.ofText mediaSource = .ok ⟨none, [("cover", ⟨.media false, none⟩),
      ("child", ⟨.component "menu.media" false, none⟩)]⟩ := by
    decide +kernel
  obtain ⟨unit, hunit⟩ : ∃ unit, ofComponent mediaSource "media" = .ok unit :=
    ⟨_, ofComponent_eq_ok.2 ⟨_, hdocument, rfl⟩⟩
  obtain ⟨document, hsame, hname, -, hattributes, -⟩ := ofComponent_closed_iff hunit
  obtain rfl := Except.ok.inj (hdocument.symm.trans hsame)
  rw [hname] at hattributes
  have hchild := hattributes "child" ⟨.component "menu.media" false, none⟩
    (.aliased "Media" "MediaComponent" "./Media") (by simp) (by decide +kernel)
  refine ⟨_, hunit, hchild.1, fun hbinds => ?_⟩
  exact hchild.2.1 hbinds (by decide +kernel) (by decide +kernel)

end GeneratedUnit

end ContentTypes.Declaration
