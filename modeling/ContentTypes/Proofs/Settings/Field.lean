import ContentTypes.Settings.Decode
import ContentTypes.Settings.KeyPath

/-!
# Fields of settings

Settings have six fields, of which five are in two tables. A source says what is in a field by the
path of the field, and the value that it gives there has to be of the field's own type.
-/

namespace ContentTypes

namespace Settings

inductive Field where
  | includes
  | api
  | components
  | output
  | writeSupport
  | skipUnchanged
  deriving DecidableEq

namespace Field

abbrev Value : Field → Type
  | includes => List Path
  | api | components | output => Path
  | writeSupport | skipUnchanged => Bool

def table? : Field → Option String
  | includes => none
  | api | components | output => some "paths"
  | writeSupport | skipUnchanged => some "output"

def key : Field → String
  | includes => "include"
  | api => "api_dir"
  | components => "components_dir"
  | output => "output_dir"
  | writeSupport => "write_boilerplate"
  | skipUnchanged => "skip_unchanged"

def path (field : Field) : String :=
  match field.table? with
  | none => field.key
  | some table => table ++ "." ++ field.key

def tables : List String := ["paths", "output"]

def all : List Field := [includes, api, components, output, writeSupport, skipUnchanged]

theorem mem_all (field : Field) : field ∈ all := by
  cases field <;> decide

variable {field other : Field} {table : String}

theorem mem_tables (h : field.table? = some table) : table ∈ tables := by
  cases field <;> cases h <;> decide

theorem key_not_mem_tables (h : field.table? = none) : field.key ∉ tables := by
  cases field <;> cases h
  decide

theorem eq_includes (h : field.table? = none) : field = includes := by
  cases field <;> cases h
  rfl

theorem path_of_table? (h : field.table? = some table) : field.path = table ++ "." ++ field.key := by
  rw [path, h]

theorem eq_of_path {key : String} (ht : table ∈ tables) (h : field.path = table ++ "." ++ key) :
    field.table? = some table ∧ field.key = key := by
  have htext : field.path.toList = table.toList ++ '.' :: key.toList := by simp [h]
  have hstart : table.toList ++ ['.'] <+: field.path.toList := ⟨key.toList, by simp [htext]⟩
  have hall : ∀ table ∈ tables, ∀ field ∈ all, table.toList ++ ['.'] <+: field.path.toList →
      field.table? = some table := by decide +kernel
  have hfield := hall table ht field (mem_all field) hstart
  rw [path_of_table? hfield] at h
  exact ⟨hfield, by simpa [String.append_right_inj] using h⟩

theorem path_injective (h : field.path = other.path) : field = other := by
  have hall : ∀ field ∈ all, ∀ other ∈ all, field.path = other.path → field = other := by
    decide +kernel
  exact hall field (mem_all field) other (mem_all other) h

-- ---------------------------------------------------------------------------
-- Paths as keys
-- ---------------------------------------------------------------------------

theorem lowercase_key (field : Field) : Text.lowercase field.key = field.key := by
  cases field <;> decide +kernel

theorem lowercase_table (h : table ∈ tables) : Text.lowercase table = table := by
  have hall : ∀ table ∈ tables, Text.lowercase table = table := by decide +kernel
  exact hall table h

theorem ofText_table (h : table ∈ tables) : KeyPath.ofText table = ⟨table, []⟩ := by
  have hall : ∀ table ∈ tables, KeyPath.ofText table = ⟨table, []⟩ := by decide +kernel
  exact hall table h

theorem ofText_path (field : Field) : KeyPath.ofText field.path =
    match field.table? with
    | none => ⟨field.key, []⟩
    | some table => ⟨table, [.entry field.key]⟩ := by
  cases field <;> decide +kernel

end Field

def value (settings : Settings) : (field : Field) → field.Value
  | .includes => settings.includes
  | .api => settings.directories.api
  | .components => settings.directories.components
  | .output => settings.directories.output
  | .writeSupport => settings.output.writeSupport
  | .skipUnchanged => settings.output.skipUnchanged

theorem ext_value {settings other : Settings}
    (h : ∀ field, settings.value field = other.value field) : settings = other := by
  obtain ⟨includes, ⟨api, components, output⟩, writeSupport, skipUnchanged⟩ := settings
  obtain ⟨includes', ⟨api', components', output'⟩, writeSupport', skipUnchanged'⟩ := other
  obtain rfl : includes = includes' := h .includes
  obtain rfl : api = api' := h .api
  obtain rfl : components = components' := h .components
  obtain rfl : output = output' := h .output
  obtain rfl : writeSupport = writeSupport' := h .writeSupport
  obtain rfl : skipUnchanged = skipUnchanged' := h .skipUnchanged
  rfl

-- ---------------------------------------------------------------------------
-- Values of a field's own type
-- ---------------------------------------------------------------------------

def path? : Setting → Option Path
  | .text _ text => some ⟨text⟩
  | _ => none

def paths? : Setting → Option (List Path)
  | .sequence _ items => items.mapM path?
  | _ => none

def flag? : Setting → Option Bool
  | .boolean _ value => some value
  | _ => none

/-- What a value says of a field, if it is of the field's own type. -/
def Field.read? : (field : Field) → Setting → Option field.Value
  | includes => paths?
  | api | components | output => path?
  | writeSupport | skipUnchanged => flag?

end Settings

end ContentTypes
