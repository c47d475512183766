import ContentTypes.Proofs.Declaration.Unit

/-!
# The order of the attributes

The names that are taken are known before the first property is made, and a reference only asks whether
a name is among them. What an attribute becomes therefore does not depend on where it stands, and other
attributes matter to it only as a set. Lists with the same attributes in another order have units with
the same lines, in that order, and imports of the same symbols: `ofAttributes_perm`.
-/

namespace ContentTypes.Declaration

open Schema (Attribute AttributeKind)

-- ---------------------------------------------------------------------------
-- Scopes with the same names
-- ---------------------------------------------------------------------------

namespace Scope

structure SameNames (scope other : Scope) : Prop where
  kind : scope.kind = other.kind
  taken : ∀ name, name ∈ scope.taken ↔ name ∈ other.taken

variable {scope other : Scope}

theorem SameNames.relation (h : scope.SameNames other) (target : String) :
    scope.relation target = other.relation target := by
  rw [Scope.relation, Scope.relation, h.kind]

theorem SameNames.component (h : scope.SameNames other) (uid : String) :
    scope.component uid = other.component uid := by
  simp only [Scope.component, h.kind, h.taken]

theorem SameNames.media (h : scope.SameNames other) : scope.media = other.media := by
  rw [Scope.media, Scope.media, h.kind]

theorem SameNames.reference? (h : scope.SameNames other) (attributeKind : AttributeKind) :
    scope.reference? attributeKind = other.reference? attributeKind := by
  cases attributeKind with
  | relation cardinality target => cases target <;> simp [Scope.reference?, h.relation]
  | component uid repeatable => simp [Scope.reference?, h.component]
  | media multiple => simp [Scope.reference?, h.media]
  | _ => rfl

theorem SameNames.ofKind? (h : scope.SameNames other) (attributeKind : AttributeKind) :
    TypePair.ofKind? scope attributeKind = TypePair.ofKind? other attributeKind := by
  cases attributeKind with
  | relation cardinality target => cases target <;> simp [TypePair.ofKind?, h.relation]
  | component uid repeatable => simp [TypePair.ofKind?, h.component]
  | media multiple => simp [TypePair.ofKind?, h.media]
  | _ => rfl

def lines? (scope : Scope) (member : String × Attribute) : Option (String × String) :=
  (Property.ofAttribute? scope member.1 member.2).map fun property =>
    (property.nestedLine, property.flatLine)

theorem SameNames.lines? (h : scope.SameNames other) : scope.lines? = other.lines? := by
  funext member
  rw [Scope.lines?, Scope.lines?, Property.ofAttribute?, Property.ofAttribute?, h.ofKind?]

theorem lines?_eq_none {member : String × Attribute} :
    scope.lines? member = none ↔ member.2.kind = .password := by
  obtain ⟨key, attributeKind, required⟩ := member
  cases attributeKind with
  | relation cardinality target =>
    cases target <;> simp [lines?, Property.ofAttribute?, TypePair.ofKind?]
  | _ => simp [lines?, Property.ofAttribute?, TypePair.ofKind?]

end Scope

-- ---------------------------------------------------------------------------
-- Registries with the same bindings
-- ---------------------------------------------------------------------------

/-- Imports from the same files, and from each file of the same symbols, in whatever order. -/
structure SameImports (needs others : List ImportNeed) : Prop where
  paths : (needs.map (·.path)).Perm (others.map (·.path))
  symbols : ∀ need ∈ needs, ∀ other ∈ others, need.path = other.path →
    need.symbols.Perm other.symbols

namespace ImportRegistry

variable {registry other : ImportRegistry}

theorem IsTidy.sameImports (h : registry.IsTidy) (h' : other.IsTidy)
    (hpaths : ∀ path, path ∈ registry.paths ↔ path ∈ other.paths)
    (hbindings : ∀ binding, binding ∈ registry.bindings ↔ binding ∈ other.bindings) :
    SameImports registry.needs other.needs where
  paths := (List.perm_ext_iff_of_nodup h.paths h'.paths).2 hpaths
  symbols need hneed need' hneed' hpath := by
    refine (List.perm_ext_iff_of_nodup (h.symbols need hneed) (h'.symbols need' hneed')).2 ?_
    intro symbol
    rw [← h.mem_bindings_iff hneed, hbindings, hpath, h'.mem_bindings_iff hneed']

end ImportRegistry

-- ---------------------------------------------------------------------------
-- Units of reordered attributes
-- ---------------------------------------------------------------------------

variable {kind : ContentKind} {name : String} {attributes permuted : List (String × Attribute)}

theorem sameNames_unitScope (h : permuted.Perm attributes) :
    (unitScope kind name permuted).SameNames (unitScope kind name attributes) where
  kind := rfl
  taken part := by
    have hbound : (boundNames kind permuted).Perm (boundNames kind attributes) := h.filterMap _
    simp only [unitScope, mem_takenNames, hbound.mem_iff]

theorem references_perm (h : permuted.Perm attributes) :
    (references kind name permuted).Perm (references kind name attributes) := by
  simp only [references, (sameNames_unitScope h).reference?]
  exact h.filterMap _

theorem mem_foreignReferences_perm (h : permuted.Perm attributes) (reference : Reference) :
    reference ∈ foreignReferences kind name permuted ↔
      reference ∈ foreignReferences kind name attributes :=
  ((references_perm h).filter _).mem_iff

namespace GeneratedUnit

theorem nested_ofAttributes : (ofAttributes kind name attributes).nested =
    (attributes.filterMap (unitScope kind name attributes).lines?).map Prod.fst := by
  simp [ofAttributes_eq, properties, Scope.lines?, List.map_filterMap, Function.comp_def]

theorem flat_ofAttributes : (ofAttributes kind name attributes).flat =
    (attributes.filterMap (unitScope kind name attributes).lines?).map Prod.snd := by
  simp [ofAttributes_eq, properties, Scope.lines?, List.map_filterMap, Function.comp_def]

theorem sameImports_of_perm (h : permuted.Perm attributes) :
    SameImports (ofAttributes kind name permuted).imports
      (ofAttributes kind name attributes).imports := by
  refine isTidy_imports.sameImports isTidy_imports (fun path => ?_) (fun ⟨path, symbol⟩ => ?_)
  · simp only [ImportRegistry.paths, mem_paths_imports, mem_foreignReferences_perm h]
  · simp only [mem_bindings_imports, mem_foreignReferences_perm h]

/-- In whatever order the attributes stand, each has the same two lines, and a password has none. The
lines come in the order of their attributes, and the same symbols are imported from the same files. -/
theorem ofAttributes_perm (h : permuted.Perm attributes) :
    let lines? := (unitScope kind name attributes).lines?
    let unit := ofAttributes kind name attributes
    let other := ofAttributes kind name permuted
    (∀ member, lines? member = none ↔ member.2.kind = .password) ∧
      unit.nested = (attributes.filterMap lines?).map Prod.fst ∧
      unit.flat = (attributes.filterMap lines?).map Prod.snd ∧
      other.nested = (permuted.filterMap lines?).map Prod.fst ∧
      other.flat = (permuted.filterMap lines?).map Prod.snd ∧
      SameImports other.imports unit.imports := by
  intro lines? unit other
  have hlines : (unitScope kind name permuted).lines? = lines? := (sameNames_unitScope h).lines?
  refine ⟨fun _ => Scope.lines?_eq_none, nested_ofAttributes, flat_ofAttributes, ?_, ?_,
    sameImports_of_perm h⟩
  · rw [← hlines]
    exact nested_ofAttributes
  · rw [← hlines]
    exact flat_ofAttributes

theorem ofAttributes_perm_of_media :
    let attributes : List (String × Attribute) := [("cover", ⟨.media false, none⟩),
      ("secret", ⟨.password, none⟩), ("owner", ⟨.relation .oneToOne (some "media"), none⟩),
      ("block", ⟨.component "blocks.media" true, none⟩)]
    let unit := ofAttributes .component "Seo" attributes
    let other := ofAttributes .component "Seo" attributes.reverse
    unit.flat = ["cover: CM_Media;", "owner: CM_MediaEntity;", "block: CM_MediaComponent[];"] ∧
      other.flat = ["block: CM_MediaComponent[];", "owner: CM_MediaEntity;", "cover: CM_Media;"] ∧
      SameImports other.imports unit.imports ∧ other.imports ≠ unit.imports := by
  intro attributes unit other
  obtain ⟨-, -, hflat, -, hflat', himports⟩ := ofAttributes_perm attributes.reverse_perm
  exact ⟨hflat.trans (by decide +kernel), hflat'.trans (by decide +kernel), himports,
    by decide +kernel⟩

end GeneratedUnit

end ContentTypes.Declaration
