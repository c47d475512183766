import ContentTypes.Proofs.Declaration.Closed
import ContentTypes.Proofs.Declaration.EntityImports
import ContentTypes.Proofs.Declaration.Lines
import ContentTypes.Proofs.Schema.Document

/-!
# The names of properties

The lines of a unit declare the names of its attributes, passwords left out. These are pairwise
different, but nothing keeps a schema from having an attribute named like the identifier: in the file of
a component this name is then declared twice, and in every file the flat declaration has it
(`declaredNames`).
-/

namespace ContentTypes.Declaration

open Schema

namespace GeneratedUnit

def identifierLine : String := "id: number;"

/-- The lines of the block in which the nested properties stand, without indentation. In the file of a
component this is the interface itself, which has the identifier too. -/
def nestedBlock (unit : GeneratedUnit) : List String :=
  match unit.kind with
  | .entity => unit.nested
  | .component => identifierLine :: unit.nested

theorem lines_eq (unit : GeneratedUnit) : unit.lines =
    unit.importLines ++ ["export interface " ++ unit.name ++ " \x7b"]
      ++ (match unit.kind with
        | .entity =>
          ["  id: number;", "  attributes: \x7b"] ++ indented "    " unit.nestedBlock ++ ["  \x7d"]
        | .component => indented "  " unit.nestedBlock)
      ++ ["\x7d", "", "export interface " ++ flatName unit.name ++ " \x7b"]
      ++ indented "  " unit.flat ++ ["\x7d"] := by
  cases hkind : unit.kind <;>
    simp [lines, nestedBody, nestedBlock, hkind, indented, identifierLine]

-- ---------------------------------------------------------------------------
-- Names read back from the lines
-- ---------------------------------------------------------------------------

def declaredNames (lines : List String) : List (Option String) :=
  lines.map declaredName?

theorem declaredName?_identifierLine : declaredName? identifierLine = some "id" := by
  decide +kernel

variable {kind : ContentKind} {name : String} {attributes : List (String × Attribute)}

theorem declaredName?_of_property {scope : Scope} {key : String} {a : Attribute} {property : Property}
    (h : Property.ofAttribute? scope key a = some property) :
    declaredName? property.nestedLine = some key ∧ declaredName? property.flatLine = some key := by
  obtain ⟨types, -, rfl⟩ := Option.map_eq_some_iff.1 h
  exact ⟨declaredName?_line _ _ _, declaredName?_line _ _ _⟩

def propertyNames (attributes : List (String × Attribute)) : List String :=
  (withoutPasswords attributes).map Prod.fst

theorem map_properties {f : Property → Option String}
    (h : ∀ key a property, Property.ofAttribute? (unitScope kind name attributes) key a = some property →
      f property = some key) :
    (properties kind name attributes).map f = (propertyNames attributes).map some := by
  rw [propertyNames, List.map_map, ← List.forall₂_eq_eq_eq, List.forall₂_map_left_iff,
    List.forall₂_map_right_iff]
  refine (forall₂_properties _ attributes).flip.imp ?_
  exact fun property member hproperty => h member.1 member.2 property hproperty

theorem declaredNames_nested : declaredNames (ofAttributes kind name attributes).nested =
    (propertyNames attributes).map some := by
  rw [ofAttributes_eq, declaredNames, List.map_map]
  exact map_properties fun _ _ _ h => (declaredName?_of_property h).1

theorem declaredNames_flat : declaredNames (ofAttributes kind name attributes).flat =
    (propertyNames attributes).map some := by
  rw [ofAttributes_eq, declaredNames, List.map_map]
  exact map_properties fun _ _ _ h => (declaredName?_of_property h).2

theorem nodup_map_some {names : List String} : (names.map some).Nodup ↔ names.Nodup :=
  List.nodup_map_iff (Option.some_injective String)

theorem nodup_declaredNames_nestedBlock (h : (propertyNames attributes).Nodup) :
    (declaredNames (ofAttributes kind name attributes).nestedBlock).Nodup ↔
      (kind = .component → "id" ∉ propertyNames attributes) := by
  cases kind with
  | entity => simpa [nestedBlock, declaredNames_nested, nodup_map_some] using h
  | component =>
    have hblock : declaredNames (ofAttributes .component name attributes).nestedBlock =
        ("id" :: propertyNames attributes).map some := by
      rw [nestedBlock, ofAttributes_kind, declaredNames, List.map_cons, declaredName?_identifierLine,
        ← declaredNames, declaredNames_nested, List.map_cons]
    rw [hblock, nodup_map_some, List.nodup_cons]
    simp [h]

-- ---------------------------------------------------------------------------
-- Accepted schemas
-- ---------------------------------------------------------------------------

theorem nodup_propertyNames (h : (attributes.map Prod.fst).Nodup) : (propertyNames attributes).Nodup :=
  h.sublist (List.filter_sublist.map Prod.fst)

theorem exists_of_accepted {source : String} {unit : GeneratedUnit}
    (h : ofEntity source = .ok unit ∨ ∃ stem, ofComponent source stem = .ok unit) :
    ∃ document, Document.ofText source = .ok document ∧
      unit = ofAttributes unit.kind unit.name document.attributes := by
  rcases h with h | ⟨stem, h⟩
  · obtain ⟨document, text, hdocument, -, rfl⟩ := ofEntity_eq_ok.1 h
    refine ⟨document, hdocument, ?_⟩
    rw [ofAttributes_kind, ofAttributes_name]
  · obtain ⟨document, hdocument, rfl⟩ := ofComponent_eq_ok.1 h
    refine ⟨document, hdocument, ?_⟩
    rw [ofAttributes_kind, ofAttributes_name]

/-- The nested and the flat lines of a unit declare the names of the document's attributes, passwords left
out, and no two of these are the same. The identifier is declared once beside them unless the file is that
of a component that has an attribute of its name, and the flat declaration is without it unless there is
such an attribute. -/
theorem declaredNames_of_accepted {source : String} {unit : GeneratedUnit}
    (h : ofEntity source = .ok unit ∨ ∃ stem, ofComponent source stem = .ok unit) :
    ∃ document, Document.ofText source = .ok document ∧
      declaredNames unit.nested = (propertyNames document.attributes).map some ∧
      declaredNames unit.flat = (propertyNames document.attributes).map some ∧
      (declaredNames unit.nested).Nodup ∧ (declaredNames unit.flat).Nodup ∧
      ((declaredNames unit.nestedBlock).Nodup ↔
        (unit.kind = .component → "id" ∉ propertyNames document.attributes)) ∧
      (some "id" ∉ declaredNames unit.flat ↔ "id" ∉ propertyNames document.attributes) := by
  obtain ⟨document, hdocument, hunit⟩ := exists_of_accepted h
  have hnodup := nodup_propertyNames (Document.nodup_names hdocument)
  have hnested : declaredNames unit.nested = (propertyNames document.attributes).map some := by
    rw [hunit, declaredNames_nested]
  have hflat : declaredNames unit.flat = (propertyNames document.attributes).map some := by
    rw [hunit, declaredNames_flat]
  refine ⟨document, hdocument, hnested, hflat, ?_, ?_, ?_, ?_⟩
  · rw [hnested, nodup_map_some]
    exact hnodup
  · rw [hflat, nodup_map_some]
    exact hnodup
  · rw [hunit, nodup_declaredNames_nestedBlock hnodup, ofAttributes_kind]
  · simp [hflat]

def numberedSource : String :=
  "\x7b\"attributes\":\x7b\"id\":\x7b\"type\":\"uid\"\x7d\x7d\x7d"

/-- The nested declaration has the identifier twice, the flat one once. -/
theorem declaredNames_of_numberedSource :
    ∃ unit, ofComponent numberedSource "row" = .ok unit ∧
      ¬(declaredNames unit.nestedBlock).Nodup ∧ some "id" ∈ declaredNames unit.flat := by
  have hdocument : Document.ofText numberedSource = .ok ⟨none, [("id", ⟨.text .uid, none⟩)]⟩ := by
    decide +kernel
  have hunit := ofComponent_eq_of_ofText hdocument "row"
  obtain ⟨document, hsame, -, -, -, -, hblock, hflat⟩ := declaredNames_of_accepted (.inr ⟨"row", hunit⟩)
  obtain rfl := Except.ok.inj (hdocument.symm.trans hsame)
  have hid : "id" ∈ propertyNames [("id", (⟨.text .uid, none⟩ : Attribute))] := by
    decide +kernel
  refine ⟨_, hunit, fun hnodup => ?_, by_contra fun hnot => hflat.1 hnot hid⟩
  exact hblock.1 hnodup ofAttributes_kind hid

end GeneratedUnit

end ContentTypes.Declaration
