import ContentTypes.Declaration.Unit
import ContentTypes.Proofs.Declaration.Name
import Mathlib.Data.List.Nodup

/-!
# The references of a declaration

A reference is to an entry of its own (a relation or media) or to a component. The path tells the two
apart. Entries of one kind of file are determined by their names, components by the names of their
types.
-/

namespace ContentTypes.Declaration

open Schema (Attribute AttributeKind)

theorem IsTypeName.append {name suffix : String} (h : IsTypeName name) (h' : IsTypeName suffix) :
    IsTypeName (name ++ suffix) where
  unseparated c hc := by
    rw [String.toList_append] at hc
    rcases List.mem_append.1 hc with hc | hc
    · exact h.unseparated c hc
    · exact h'.unseparated c hc
  capital c hc := by
    rw [String.toList_append] at hc
    cases hname : name.toList with
    | nil => exact h'.capital c (by simpa [hname] using hc)
    | cons d rest => exact h.capital c (by simpa [hname] using hc)

theorem isTypeName_entity : IsTypeName "Entity" := by
  decide +kernel

theorem isTypeName_component : IsTypeName "Component" := by
  decide +kernel

-- ---------------------------------------------------------------------------
-- The names that a reference binds
-- ---------------------------------------------------------------------------

namespace Reference

/-- A reference is known by the name of a type and its flat name, and its import binds these two. -/
structure IsFormed (reference : Reference) : Prop where
  nested : IsTypeName reference.nested
  flat : reference.flat = flatName reference.nested
  locals : reference.need.symbols.map (·.localName) = [reference.nested, reference.flat]

variable {reference : Reference} {name other path : String}

theorem isFormed_direct (h : IsTypeName name) : (direct name path).IsFormed :=
  ⟨h, rfl, rfl⟩

theorem isFormed_aliased (h : IsTypeName other) : (aliased name other path).IsFormed :=
  ⟨h, rfl, rfl⟩

theorem IsFormed.nodup_locals (h : reference.IsFormed) :
    (reference.need.symbols.map (·.localName)).Nodup := by
  rw [h.locals, h.flat]
  simpa using ne_flatName h.nested.unseparated

theorem IsFormed.mem_locals (h : reference.IsFormed) :
    name ∈ reference.need.symbols.map (·.localName) ↔
      name = reference.nested ∨ name = flatName reference.nested := by
  rw [h.locals, h.flat]
  simp

end Reference

-- ---------------------------------------------------------------------------
-- Paths
-- ---------------------------------------------------------------------------

namespace ContentKind

variable {kind : ContentKind} {name other : String}

theorem entityDir_append_ne (h : IsTypeName name) :
    kind.entityDir ++ name ≠ kind.componentDir ++ other := by
  intro heq
  rw [← String.toList_inj] at heq
  cases kind with
  | entity =>
    have hname : name.toList = "components/".toList ++ other.toList := by
      simpa [entityDir, componentDir] using heq
    exact h.capital 'c' (by simp [hname]) (by decide)
  | component => simp [entityDir, componentDir] at heq

end ContentKind

-- ---------------------------------------------------------------------------
-- Entries
-- ---------------------------------------------------------------------------

namespace Scope

/-- The reference of a relation or of media, which does not depend on the names taken. -/
def entryOf? (kind : ContentKind) : AttributeKind → Option Reference
  | .relation _ (some target) => some (({ kind } : Scope).relation target)
  | .media _ => some ({ kind } : Scope).media
  | _ => none

def IsEntry (kind : ContentKind) (entry : Reference) : Prop :=
  ∃ attributeKind, entryOf? kind attributeKind = some entry

variable {kind : ContentKind} {entry entry' : Reference} {name : String}

/-- In an entity file an entry has its own name, in a component file an alias unless it is media. -/
theorem IsEntry.cases (h : IsEntry kind entry) :
    ∃ name, IsTypeName name ∧
      (entry = .direct name (kind.entityDir ++ name) ∧ (kind = .entity ∨ name = mediaName) ∨
        entry = .aliased name (name ++ "Entity") (kind.entityDir ++ name) ∧ kind = .component) := by
  obtain ⟨attributeKind, h⟩ := h
  unfold entryOf? at h
  split at h
  · rename_i target
    obtain rfl := Option.some.inj h
    refine ⟨targetName target, isTypeName_targetName target, ?_⟩
    cases kind with
    | entity => exact .inl ⟨rfl, .inl rfl⟩
    | component => exact .inr ⟨rfl, rfl⟩
  · obtain rfl := Option.some.inj h
    exact ⟨mediaName, isTypeName_mediaName, .inl ⟨rfl, .inr rfl⟩⟩
  · cases h

theorem IsEntry.isFormed (h : IsEntry kind entry) : entry.IsFormed := by
  obtain ⟨name, hname, ⟨rfl, -⟩ | ⟨rfl, -⟩⟩ := h.cases
  · exact Reference.isFormed_direct hname
  · exact Reference.isFormed_aliased (hname.append isTypeName_entity)

theorem append_entity_ne_mediaName : name ++ "Entity" ≠ mediaName := by
  intro h
  have hlast := congrArg (·.toList.getLast?) h
  simp [mediaName] at hlast

theorem IsEntry.eq_of_nested (h : IsEntry kind entry) (h' : IsEntry kind entry')
    (heq : entry.nested = entry'.nested) : entry = entry' := by
  obtain ⟨name, -, hname⟩ := h.cases
  obtain ⟨name', -, hname'⟩ := h'.cases
  rcases hname with ⟨rfl, hd⟩ | ⟨rfl, ha⟩ <;> rcases hname' with ⟨rfl, hd'⟩ | ⟨rfl, ha'⟩
  · obtain rfl : name = name' := heq
    rfl
  · subst ha'
    rcases hd with hd | rfl
    · cases hd
    · exact absurd heq.symm append_entity_ne_mediaName
  · subst ha
    rcases hd' with hd' | rfl
    · cases hd'
    · exact absurd heq append_entity_ne_mediaName
  · obtain rfl : name = name' := (String.append_left_inj "Entity").1 heq
    rfl

theorem IsEntry.path_ne (h : IsEntry kind entry) : entry.need.path ≠ kind.componentDir ++ name := by
  obtain ⟨_, hname, ⟨rfl, -⟩ | ⟨rfl, -⟩⟩ := h.cases
  · exact kind.entityDir_append_ne hname
  · exact kind.entityDir_append_ne hname

theorem IsEntry.path_eq_ownPath (h : IsEntry kind entry) :
    entry.need.path = kind.ownPath name ↔ kind = .entity ∧ entry.nested = name := by
  cases kind with
  | entity =>
    obtain ⟨name', -, ⟨rfl, -⟩ | ⟨-, hkind⟩⟩ := h.cases
    · simp [ContentKind.ownPath, Reference.direct, String.append_right_inj]
    · cases hkind
  | component => simpa [ContentKind.ownPath] using h.path_ne

-- ---------------------------------------------------------------------------
-- Components
-- ---------------------------------------------------------------------------

def componentNamed (scope : Scope) (name : String) : Reference :=
  if name ∈ scope.taken then .aliased name (name ++ "Component") (scope.kind.componentDir ++ name)
  else .direct name (scope.kind.componentDir ++ name)

variable {scope : Scope}

theorem isFormed_componentNamed (h : IsTypeName name) : (scope.componentNamed name).IsFormed := by
  unfold componentNamed
  split
  · exact Reference.isFormed_aliased (h.append isTypeName_component)
  · exact Reference.isFormed_direct h

theorem componentNamed_path : (scope.componentNamed name).need.path =
    scope.kind.componentDir ++ name := by
  unfold componentNamed
  split <;> rfl

theorem componentNamed_nested : (scope.componentNamed name).nested =
    if name ∈ scope.taken then name ++ "Component" else name := by
  unfold componentNamed
  split <;> rfl

theorem componentNamed_nested_of_mem (h : name ∈ scope.taken) :
    (scope.componentNamed name).nested = name ++ "Component" := by
  rw [componentNamed_nested, if_pos h]

theorem componentNamed_nested_of_not_mem (h : name ∉ scope.taken) :
    (scope.componentNamed name).nested = name := by
  rw [componentNamed_nested, if_neg h]

theorem componentNamed_path_eq_ownPath {own : String} (h : IsTypeName own) :
    (scope.componentNamed name).need.path = scope.kind.ownPath own ↔
      scope.kind = .component ∧ name = own := by
  rw [componentNamed_path]
  cases hkind : scope.kind with
  | entity => simpa [ContentKind.ownPath] using (ContentKind.entityDir_append_ne h).symm
  | component => simp [ContentKind.ownPath, String.append_right_inj]

-- ---------------------------------------------------------------------------
-- References of attributes
-- ---------------------------------------------------------------------------

def reference? (scope : Scope) : AttributeKind → Option Reference
  | .relation _ (some target) => some (scope.relation target)
  | .component uid _ => some (scope.component uid)
  | .media _ => some scope.media
  | _ => none

def componentName? : AttributeKind → Option String
  | .component uid _ => some (typeName uid)
  | _ => none

variable {attributeKind : AttributeKind}

theorem reference?_eq : scope.reference? attributeKind =
    (entryOf? scope.kind attributeKind <|> (componentName? attributeKind).map scope.componentNamed) := by
  cases attributeKind with
  | relation cardinality target => cases target <;> rfl
  | _ => rfl

theorem entryOf?_eq_none (h : componentName? attributeKind = some name) :
    entryOf? kind attributeKind = none := by
  cases attributeKind with
  | component => rfl
  | _ => cases h

theorem isTypeName_componentName? (h : componentName? attributeKind = some name) :
    IsTypeName name := by
  cases attributeKind with
  | component uid repeatable =>
    obtain rfl := Option.some.inj h
    exact isTypeName_typeName uid
  | _ => cases h

end Scope

end ContentTypes.Declaration
