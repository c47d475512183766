import ContentTypes.FileTree.Access
import ContentTypes.Settings
import ContentTypes.Settings.Setting

/-!
# Settings from merged values

Booleans and texts are made from values of other types where that makes sense. Keys that are not known
count for nothing, and what no source says has its default.
-/

namespace ContentTypes.Settings

inductive LoadError where
  | wrongScalar (found : Found) (wanted : Wanted) (key : String) (origin : Origin)
  | wrongShape (found : Found) (wanted : Wanted)
  | notFound (name : Path)
  | unknownFormat (name : Path)
  | unreadable (error : FileError)
  | malformed (file : String)
  deriving DecidableEq, Repr

def foundText : Found → String
  | .null => "unit value"
  | .boolean value => "boolean `" ++ toString value ++ "`"
  | .integer value => "integer `" ++ toString value ++ "`"
  | .float value => "floating point `" ++ value.pointed ++ "`"
  | .string text => "string " ++ Text.doubleQuoted text
  | .sequence => "sequence"
  | .map => "map"

def LoadError.message : LoadError → String
  | wrongScalar found wanted key origin =>
    let place := match origin with
      | some name => " in " ++ name
      | none => ""
    "invalid type: " ++ foundText found ++ ", expected " ++ wanted.text ++ " for key `" ++ key ++ "`"
      ++ place
  | wrongShape found wanted => "invalid type: " ++ foundText found ++ ", expected " ++ wanted.text
  | notFound name => "configuration file \"" ++ name.text ++ "\" not found"
  | unknownFormat name =>
    "configuration file \"" ++ name.text ++ "\" is not of a registered file format"
  | unreadable error => error.message
  | malformed file => "malformed configuration in " ++ file

def booleanOfWord? (word : String) : Option Bool :=
  match word with
  | "1" | "true" | "on" | "yes" => some true
  | "0" | "false" | "off" | "no" => some false
  | _ => none

def decodeBoolean (key : String) : Setting → Except LoadError Bool
  | .boolean _ value => .ok value
  | .integer _ value => .ok (value ≠ 0)
  | .float _ value => .ok (!value.isZero)
  | .text origin text =>
    let word := Text.lowercase text
    match booleanOfWord? word with
    | some value => .ok value
    | none => .error (.wrongScalar (.string word) .boolean key origin)
  | setting => .error (.wrongScalar setting.found .boolean key setting.origin)

def decodeText (key : String) : Setting → Except LoadError String
  | .text _ text => .ok text
  | .boolean _ value => .ok (toString value)
  | .integer _ value => .ok (toString value)
  | .float _ value => .ok value.positional
  | setting => .error (.wrongScalar setting.found .string key setting.origin)

def decodePath (key : String) (setting : Setting) : Except LoadError Path :=
  (decodeText key setting).map Path.mk

def itemKey (key : String) (index : Nat) : String :=
  key ++ "[" ++ toString index ++ "]"

def decodePaths (key : String) : Setting → Except LoadError (List Path)
  | .sequence _ items => (items.mapIdx fun i item => (i, item)).mapM fun (i, item) =>
    decodePath (itemKey key i) item
  | setting => .error (.wrongShape setting.found .sequence)

/-- A field of a part of the settings: its name, and how a value under some key changes the part. -/
abbrev DecodedField (σ : Type) := String × (String → σ → Setting → Except LoadError σ)

def decodeItems {σ : Type} (key : String) (index : Nat) : List (DecodedField σ) → σ →
    List Setting → Except LoadError σ
  | (_, set) :: fields, state, item :: items => do
    decodeItems key (index + 1) fields (← set (itemKey key index) state item) items
  | _, state, _ => .ok state

/-- Decodes the fields of a table in the order in which they stand. `keyOf` gives the whole key of a
field. -/
def decodeEntries {σ : Type} (keyOf : String → String) (fields : List (DecodedField σ)) (start : σ)
    (entries : List (String × Setting)) : Except LoadError σ :=
  entries.foldlM (fun state (name, value) =>
    match fields.lookup name with
    | some set => set (keyOf name) state value
    | none => .ok state) start

def decodePart {σ : Type} (record : String) (fields : List (DecodedField σ)) (start : σ)
    (key : String) : Setting → Except LoadError σ
  | .table _ entries => decodeEntries (key ++ "." ++ ·) fields start entries
  | .sequence _ items => decodeItems key 0 fields start items
  | setting => .error (.wrongShape setting.found (.record record))

def directoryFields : List (DecodedField Directories) := [
  ("api_dir", fun key state value => do pure { state with api := ← decodePath key value }),
  ("components_dir", fun key state value => do
    pure { state with components := ← decodePath key value }),
  ("output_dir", fun key state value => do pure { state with output := ← decodePath key value })]

def decodeDirectories : String → Setting → Except LoadError Directories :=
  decodePart "PathsConfig" directoryFields {}

def outputFields : List (DecodedField OutputOptions) := [
  ("write_boilerplate", fun key state value => do
    pure { state with writeSupport := ← decodeBoolean key value }),
  ("skip_unchanged", fun key state value => do
    pure { state with skipUnchanged := ← decodeBoolean key value })]

def decodeOutputOptions : String → Setting → Except LoadError OutputOptions :=
  decodePart "OutputConfig" outputFields {}

def settingsFields : List (DecodedField Settings) := [
  ("include", fun key state value => do pure { state with includes := ← decodePaths key value }),
  ("paths", fun key state value => do
    pure { state with directories := ← decodeDirectories key value }),
  ("output", fun key state value => do
    pure { state with output := ← decodeOutputOptions key value })]

def ofSetting (setting : Setting) : Except LoadError Settings :=
  decodeEntries id settingsFields {} setting.entries

end ContentTypes.Settings
