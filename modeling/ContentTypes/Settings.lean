import ContentTypes.Json.Error
import ContentTypes.Path
import ContentTypes.Toml.Writer

/-!
# Settings of a project

Where schemas are found, where declarations go, and how they are written. All paths are seen from the
root of the project.

In JSON each part of the settings is an object with some of its fields, or an array with the first of them
in order. A field that is absent has its default; there is no default for a `null`.
-/

namespace ContentTypes

structure Directories where
  api : Path := ⟨"src/api"⟩
  components : Path := ⟨"src/components"⟩
  output : Path := ⟨"types"⟩
  deriving DecidableEq, Repr

structure OutputOptions where
  /-- Whether the support files are written too. -/
  writeSupport : Bool := true
  /-- Whether a file stays untouched that has its contents already. -/
  skipUnchanged : Bool := true
  deriving DecidableEq, Repr

structure Settings where
  includes : List Path := []
  directories : Directories := {}
  output : OutputOptions := {}
  deriving DecidableEq, Repr

namespace Settings

def apiDir (settings : Settings) (root : Path) : Path :=
  root.join settings.directories.api

def componentsDir (settings : Settings) (root : Path) : Path :=
  root.join settings.directories.components

def outputDir (settings : Settings) (root : Path) : Path :=
  root.join settings.directories.output

def includePaths (settings : Settings) (root : Path) : List Path :=
  settings.includes.map root.join

def toToml (settings : Settings) : String :=
  "include = " ++ Toml.writeStrings (settings.includes.map (·.text)) ++ "\n\n[paths]\n"
    ++ "api_dir = " ++ Toml.writeString settings.directories.api.text ++ "\n"
    ++ "components_dir = " ++ Toml.writeString settings.directories.components.text ++ "\n"
    ++ "output_dir = " ++ Toml.writeString settings.directories.output.text ++ "\n\n[output]\n"
    ++ "write_boilerplate = " ++ Toml.writeBoolean settings.output.writeSupport ++ "\n"
    ++ "skip_unchanged = " ++ Toml.writeBoolean settings.output.skipUnchanged ++ "\n"

open Json (Value ContentError)

/-- A field of a part of the settings: its name, and how its value changes what has been read. -/
abbrev PartField (σ : Type) := String × (σ → Value → Except ContentError σ)

/-- Reads the items of an array as fields. Gives what has been read if they are not too many. -/
def readItems {σ : Type} (count : Nat) : List (PartField σ) → σ → List Value →
    Except ContentError σ
  | _, state, [] => .ok state
  | [], _, _ :: _ => .error (.tooLong count)
  | (_, set) :: fields, state, item :: items => do
    readItems count fields (← set state item) items

def readPart {σ : Type} (name : String) (fields : List (PartField σ)) (start : σ) :
    Value → Except ContentError σ
  | .object members =>
    members.foldlM (fun state (key, value) =>
      match fields.lookup key with
      | some set => set state value
      | none => .ok state) start
  | .array items => readItems items.length fields start items
  | value => .error (.wrongType value.found (.record name))

def readDirectories : Value → Except ContentError Directories :=
  readPart "PathsConfig" [
    ("api_dir", fun state value => do pure { state with api := ⟨← value.expectPath⟩ }),
    ("components_dir", fun state value => do pure { state with components := ⟨← value.expectPath⟩ }),
    ("output_dir", fun state value => do pure { state with output := ⟨← value.expectPath⟩ })] {}

def readOutputOptions : Value → Except ContentError OutputOptions :=
  readPart "OutputConfig" [
    ("write_boilerplate", fun state value => do
      pure { state with writeSupport := ← value.expectBoolean }),
    ("skip_unchanged", fun state value => do
      pure { state with skipUnchanged := ← value.expectBoolean })] {}

def ofValue : Value → Except ContentError Settings :=
  readPart "TypegenConfig" [
    ("include", fun state value => do
      pure { state with includes := (← value.expectItems Value.expectPath).map Path.mk }),
    ("paths", fun state value => do pure { state with directories := ← readDirectories value }),
    ("output", fun state value => do pure { state with output := ← readOutputOptions value })] {}

end Settings

end ContentTypes
