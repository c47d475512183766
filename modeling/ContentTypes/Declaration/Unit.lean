import ContentTypes.Declaration.Property
import ContentTypes.Path
import ContentTypes.Schema.Document

/-!
# Generated units

One file of declarations: the imports, the nested declaration and the flat declaration. In the nested
declaration of an entity the properties stand in an `attributes` block.

The names that the relations and media of a schema bind are collected first, so that a component of the
same name gets an alias wherever it stands in the list. An entity is named by its schema, a component by
the file that holds its schema.
-/

namespace ContentTypes.Declaration

open Schema

/-- The lines of the properties stand in a unit without indentation. -/
structure GeneratedUnit where
  kind : ContentKind
  name : String
  imports : List ImportNeed
  nested : List String
  flat : List String
  deriving DecidableEq, Repr

namespace GeneratedUnit

def fileName (unit : GeneratedUnit) : String :=
  unit.name ++ ".ts"

def path (unit : GeneratedUnit) : Path :=
  match unit.kind with
  | .entity => ⟨unit.fileName⟩
  | .component => (⟨"components"⟩ : Path).join ⟨unit.fileName⟩

def indented (indent : String) (lines : List String) : List String :=
  lines.map (indent ++ ·)

def importLines (unit : GeneratedUnit) : List String :=
  if unit.imports.isEmpty then [] else unit.imports.map (·.statement) ++ [""]

def nestedBody (unit : GeneratedUnit) : List String :=
  match unit.kind with
  | .entity => ["  attributes: \x7b"] ++ indented "    " unit.nested ++ ["  \x7d"]
  | .component => indented "  " unit.nested

def lines (unit : GeneratedUnit) : List String :=
  unit.importLines
    ++ ["export interface " ++ unit.name ++ " \x7b", "  id: number;"]
    ++ unit.nestedBody
    ++ ["\x7d", "", "export interface " ++ flatName unit.name ++ " \x7b"]
    ++ indented "  " unit.flat
    ++ ["\x7d"]

def render (unit : GeneratedUnit) : String :=
  Text.joinLines unit.lines

end GeneratedUnit

def boundName? (kind : ContentKind) (a : Attribute) : Option String :=
  match a.kind with
  | .relation _ (some target) => some ({ kind : Scope }.relation target).nested
  | .media _ => some mediaName
  | _ => none

/-- The names bound before any component is imported. A component file may refer to itself. -/
def takenNames (kind : ContentKind) (name : String) (attributes : List (String × Attribute)) :
    List String :=
  let own := match kind with
    | .entity => [name]
    | .component => []
  own ++ attributes.filterMap fun (_, a) => boundName? kind a

namespace GeneratedUnit

/-- Adds a property to a unit. A type of the unit's own file is not imported. -/
def addProperty (unit : GeneratedUnit) (property : Property) : GeneratedUnit :=
  let imports := match property.need? with
    | some need =>
      if need.path = unit.kind.ownPath unit.name then unit.imports
      else (ImportRegistry.insert ⟨unit.imports⟩ need).needs
    | none => unit.imports
  { unit with
    imports
    nested := unit.nested ++ [property.nestedLine]
    flat := unit.flat ++ [property.flatLine] }

def ofAttributes (kind : ContentKind) (name : String) (attributes : List (String × Attribute)) :
    GeneratedUnit :=
  let scope : Scope := ⟨kind, takenNames kind name attributes⟩
  let properties := attributes.filterMap fun (key, a) =>
    Property.ofAttribute? scope key a
  properties.foldl addProperty ⟨kind, name, [], [], []⟩

end GeneratedUnit

inductive SchemaError where
  | malformed (error : Json.ReadError)
  | unnamed
  deriving DecidableEq, Repr

def unnamedMessage (origin : String) : String :=
  "Schema has no info.singularName: " ++ origin

def SchemaError.message : SchemaError → String
  | malformed error => "JSON error: " ++ error.message
  | unnamed => unnamedMessage "<inline>"

def SchemaError.messageAt (path : String) : SchemaError → String
  | malformed error => "Invalid schema " ++ path ++ ": " ++ error.message
  | unnamed => unnamedMessage path

namespace GeneratedUnit

def ofEntity (source : String) : Except SchemaError GeneratedUnit := do
  let document ← (Document.ofText source).mapError .malformed
  match document.singularName? with
  | some name => pure (ofAttributes .entity (pascalCase name) document.attributes)
  | none => throw .unnamed

def ofComponent (source stem : String) : Except SchemaError GeneratedUnit := do
  let document ← (Document.ofText source).mapError .malformed
  pure (ofAttributes .component (pascalCase stem) document.attributes)

end GeneratedUnit

end ContentTypes.Declaration
