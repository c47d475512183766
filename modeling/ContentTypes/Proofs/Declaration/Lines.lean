import ContentTypes.Proofs.Declaration.Key
import ContentTypes.Proofs.Declaration.Passwords
import ContentTypes.Proofs.Declaration.Unit
import Mathlib.Data.List.Forall2
import Mathlib.Data.Option.Basic

/-!
# The two lines of an attribute

Every attribute but a password has one line in the nested declaration and one in the flat declaration,
at the same place: `ofAttributes_lines`. The lines have one key, and types that go together, in the file
of an entity as in that of a component, and whether the type referred to has an alias or not.
-/

namespace ContentTypes.Declaration

open Schema

/-- What the key of an attribute is. Only that of an optional attribute has the mark at its end. -/
structure IsKeyOf (name : String) (a : Attribute) (key : String) : Prop where
  eq : key = propertyKey name false ++ optionalMark (a.required = some false)
  marked : key.toList.getLast? = some '?' ↔ a.required = some false

/-- Whether the type that an attribute of a kind refers to is known as `part` in the file: the import
that the attribute needs binds `part` and its flat name. -/
def KnownAs (scope : Scope) (kind : AttributeKind) (part : String) : Prop :=
  ∃ reference, scope.reference? kind = some reference ∧
    reference.need.symbols.map (·.localName) = [part, flatName part]

/-- The nested and the flat type of the attributes of a kind. -/
inductive TypesOf (scope : Scope) : AttributeKind → String → String → Prop
  | relation {cardinality : Cardinality} {target part suffix : String}
    (known : KnownAs scope (.relation cardinality (some target)) part)
    (array : suffix = if cardinality.isToMany then "[]" else "") :
    TypesOf scope (.relation cardinality (some target))
      ("\x7b data: " ++ part ++ suffix ++ " \x7d") ("CM_" ++ part ++ suffix)
  | media {multiple : Bool} {part suffix : String} (known : KnownAs scope (.media multiple) part)
    (array : suffix = if multiple then "[]" else "") :
    TypesOf scope (.media multiple)
      ("\x7b data: " ++ part ++ suffix ++ " \x7d") ("CM_" ++ part ++ suffix)
  | component {uid : String} {repeatable : Bool} {part suffix : String}
    (known : KnownAs scope (.component uid repeatable) part)
    (array : suffix = if repeatable then "[]" else "") :
    TypesOf scope (.component uid repeatable) (part ++ suffix) ("CM_" ++ part ++ suffix)
  | temporal {kind : TemporalKind} : TypesOf scope (.temporal kind) "Date" "string"
  | same {kind : AttributeKind} {type : String} (unreferring : scope.reference? kind = none)
    (timeless : ∀ moment, kind ≠ .temporal moment) : TypesOf scope kind type type

def AreLinesOf (scope : Scope) (member : String × Attribute) (lines : String × String) : Prop :=
  ∃ key nested flat, IsKeyOf member.1 member.2 key ∧ TypesOf scope member.2.kind nested flat ∧
    lines.1 = key ++ ": " ++ nested ++ ";" ∧ lines.2 = key ++ ": " ++ flat ++ ";"

variable {scope : Scope} {kind : ContentKind} {name : String} {attributes : List (String × Attribute)}

-- ---------------------------------------------------------------------------
-- One attribute
-- ---------------------------------------------------------------------------

theorem isKeyOf_propertyKey (name : String) (a : Attribute) :
    IsKeyOf name a (propertyKey name a.isOptional) := by
  rw [propertyKey_eq]
  cases hoptional : a.isOptional with
  | false =>
    have hrequired : a.required ≠ some false := by simpa [Attribute.isOptional] using hoptional
    refine ⟨by simp [hrequired], iff_of_false ?_ hrequired⟩
    simpa [optionalMark] using getLast?_propertyKey_ne name
  | true =>
    have hrequired : a.required = some false := by simpa [Attribute.isOptional] using hoptional
    refine ⟨by simp [hrequired], iff_of_true ?_ hrequired⟩
    simp [optionalMark]

theorem isFormed_of_reference? {reference : Reference} {attributeKind : AttributeKind}
    (h : scope.reference? attributeKind = some reference) : reference.IsFormed := by
  rw [Scope.reference?_eq, Option.orElse_eq_some] at h
  rcases h with hentry | ⟨-, hcomponent⟩
  · exact Scope.IsEntry.isFormed ⟨_, hentry⟩
  · obtain ⟨part, hpart, rfl⟩ := Option.map_eq_some_iff.1 hcomponent
    exact Scope.isFormed_componentNamed (Scope.isTypeName_componentName? hpart)

theorem knownAs_of_reference? {reference : Reference} {attributeKind : AttributeKind}
    (h : scope.reference? attributeKind = some reference) :
    KnownAs scope attributeKind reference.nested :=
  ⟨reference, h, by rw [(isFormed_of_reference? h).locals, (isFormed_of_reference? h).flat]⟩

theorem Reference.IsFormed.flat_append {reference : Reference} (h : reference.IsFormed)
    (suffix : String) : reference.flat ++ suffix = "CM_" ++ reference.nested ++ suffix := by
  rw [h.flat, flatName]

theorem typesOf_ofKind? {attributeKind : AttributeKind} {types : TypePair}
    (h : TypePair.ofKind? scope attributeKind = some types) :
    TypesOf scope attributeKind types.nested types.flat := by
  cases attributeKind with
  | relation cardinality target =>
    cases target with
    | none =>
      obtain rfl := Option.some.inj h
      exact .same rfl nofun
    | some target =>
      obtain rfl := Option.some.inj h
      have href : scope.reference? (.relation cardinality (some target)) =
        some (scope.relation target) := rfl
      simp only [TypePair.enveloped, (isFormed_of_reference? href).flat_append]
      exact .relation (knownAs_of_reference? href) rfl
  | media multiple =>
    obtain rfl := Option.some.inj h
    have href : scope.reference? (.media multiple) = some scope.media := rfl
    simp only [TypePair.enveloped, (isFormed_of_reference? href).flat_append]
    exact .media (knownAs_of_reference? href) rfl
  | component uid repeatable =>
    obtain rfl := Option.some.inj h
    have href : scope.reference? (.component uid repeatable) = some (scope.component uid) := rfl
    simp only [TypePair.embedded, (isFormed_of_reference? href).flat_append]
    exact .component (knownAs_of_reference? href) rfl
  | temporal =>
    obtain rfl := Option.some.inj h
    exact .temporal
  | password => cases h
  | enumeration | text | number | boolean | json | unrecognized =>
    obtain rfl := Option.some.inj h
    exact .same rfl nofun

theorem exists_property {a : Attribute} (h : a.kind ≠ .password) (scope : Scope) (key : String) :
    ∃ property, Property.ofAttribute? scope key a = some property := by
  unfold Property.ofAttribute?
  obtain ⟨attributeKind, required⟩ := a
  cases attributeKind with
  | relation cardinality target => cases target <;> exact ⟨_, rfl⟩
  | password => exact absurd rfl h
  | _ => exact ⟨_, rfl⟩

theorem areLinesOf_property {member : String × Attribute} {property : Property}
    (h : Property.ofAttribute? scope member.1 member.2 = some property) :
    AreLinesOf scope member (property.nestedLine, property.flatLine) := by
  obtain ⟨types, htypes, rfl⟩ := Option.map_eq_some_iff.1 h
  exact ⟨_, _, _, isKeyOf_propertyKey member.1 member.2, typesOf_ofKind? htypes, rfl, rfl⟩

-- ---------------------------------------------------------------------------
-- The lines of a unit
-- ---------------------------------------------------------------------------

theorem forall₂_properties (scope : Scope) (attributes : List (String × Attribute)) :
    List.Forall₂ (fun member property => Property.ofAttribute? scope member.1 member.2 = some property)
      (withoutPasswords attributes)
      (attributes.filterMap fun member => Property.ofAttribute? scope member.1 member.2) := by
  induction attributes with
  | nil => exact .nil
  | cons member rest ih =>
    by_cases hpassword : member.2.kind = .password
    · have hnone : Property.ofAttribute? scope member.1 member.2 = none :=
        Property.ofAttribute?_of_password hpassword
      simpa [withoutPasswords, hpassword, hnone] using ih
    · obtain ⟨property, hproperty⟩ := exists_property hpassword scope member.1
      simpa [withoutPasswords, hpassword, hproperty] using ih

namespace GeneratedUnit

/-- The nested and the flat lines of a unit are those of its attributes, passwords left out, in the
order of the schema: as many, with the same key at the same place, and with types that go together. -/
theorem ofAttributes_lines (kind : ContentKind) (name : String)
    (attributes : List (String × Attribute)) :
    (ofAttributes kind name attributes).nested.length = (withoutPasswords attributes).length ∧
      (ofAttributes kind name attributes).flat.length = (withoutPasswords attributes).length ∧
      List.Forall₂ (AreLinesOf (unitScope kind name attributes)) (withoutPasswords attributes)
        ((ofAttributes kind name attributes).nested.zip (ofAttributes kind name attributes).flat) := by
  have hproperties := forall₂_properties (unitScope kind name attributes) attributes
  rw [ofAttributes_eq]
  refine ⟨?_, ?_, ?_⟩
  · rw [List.length_map, hproperties.length_eq, properties]
  · rw [List.length_map, hproperties.length_eq, properties]
  · rw [List.zip_map', List.forall₂_map_right_iff]
    exact hproperties.imp fun _ _ => areLinesOf_property

end GeneratedUnit

end ContentTypes.Declaration
