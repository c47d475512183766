import ContentTypes.Json.Reader
import ContentTypes.Settings.Decode
import ContentTypes.Settings.Environment
import ContentTypes.Settings.KeyPath
import ContentTypes.Toml.Reader

/-!
# Loading settings

Settings come from up to five files and from the environment, later sources over earlier ones. All
files but one that is asked for may be missing.

A file is in TOML or in JSON. No other format is known, and where a name is tried with extensions added,
they are tried in this order.
-/

namespace ContentTypes

/-- The names that lead from the working directory to a path, whether or not anything is there. -/
def FileTree.relativeText (tree : FileTree) (path : Path) : String :=
  let base := tree.workingDirectory.reverse.map (·.text)
  let start := if path.isAbsolute then [] else base
  let target := path.components.foldl (fun names component =>
    match component with
    | .normal name => names ++ [name]
    | .parent => names.dropLast
    | .root | .current => names) start
  let shared := ((base.zip target).takeWhile fun (a, b) => a = b).length
  "/".intercalate (List.replicate (base.length - shared) ".." ++ target.drop shared)

namespace Settings

inductive Format where
  | toml
  | json
  deriving DecidableEq, Repr

namespace Format

def extension : Format → String
  | toml => "toml"
  | json => "json"

def ofPath? (path : Path) : Option Format :=
  [toml, json].find? fun format => path.extension? = some format.extension

def read? (format : Format) (origin : Origin) (text : String) : Option (List (String × Setting)) :=
  match format with
  | toml => (Toml.ofText? text).map (Setting.entriesOfToml origin)
  | json =>
    match Json.Value.ofText text with
    | .ok (.object members) => some (Setting.entriesOfJson origin members)
    | _ => none

end Format

def withExtensions (name : Path) : List (Path × Format) :=
  [Format.toml, Format.json].filterMap fun format =>
    (name.addExtension? format.extension).map fun path => (path, format)

/-- The file of a name: the one that has it, or else one that has it with an extension added. -/
def findFile (tree : FileTree) (name : Path) : Except LoadError (Path × Format) :=
  if tree.fileExists name then
    match Format.ofPath? name with
    | some format => .ok (name, format)
    | none => .error (.unknownFormat name)
  else
    match (withExtensions name).find? fun (path, _) => tree.fileExists path with
    | some found => .ok found
    | none => .error (.notFound name)

def readFile (tree : FileTree) (name : Path) : Except LoadError (List (String × Setting)) := do
  let (path, format) ← findFile tree name
  let text ← (tree.readText path).mapError .unreadable
  let origin := tree.relativeText path
  match format.read? (some origin) text with
  | some entries => pure entries
  | none => throw (.malformed origin)

/-- A file that is missing or cannot be read says nothing. -/
def readOptionalFile (tree : FileTree) (name : Path) :
    Except LoadError (List (String × Setting)) :=
  match readFile tree name with
  | .ok entries => .ok entries
  | .error (.malformed origin) => .error (.malformed origin)
  | .error _ => .ok []

structure Sources where
  root : Path
  /-- The settings of the user, for all projects. They count only if they are there. -/
  userFile : Path
  explicit? : Option Path := none
  environment : List (String × String) := []

def Sources.optionalFiles (sources : Sources) (tree : FileTree) : List Path :=
  [sources.root.join ⟨"typegen.toml"⟩, sources.root.join ⟨".typegen.toml"⟩]
    ++ (if tree.pathExists sources.userFile then [sources.userFile] else [])
    ++ [sources.root.join ⟨"types/Config.json"⟩]

def Sources.places (sources : Sources) : List Path :=
  let names := [sources.root.join ⟨"typegen.toml"⟩, sources.root.join ⟨".typegen.toml"⟩,
    sources.userFile, sources.root.join ⟨"types/Config.json"⟩] ++ sources.explicit?.toList
  names.flatMap fun name => name :: (withExtensions name).map Prod.fst

def Sources.read (sources : Sources) (tree : FileTree) :
    Except LoadError (List (List (String × Setting))) := do
  let optional ← (sources.optionalFiles tree).mapM (readOptionalFile tree)
  let explicit ← sources.explicit?.toList.mapM (readFile tree)
  pure (optional ++ explicit ++ [ofEnvironment sources.environment])

def load (tree : FileTree) (sources : Sources) : Except LoadError Settings := do
  ofSetting (Setting.mergeSources (← sources.read tree))

end Settings

end ContentTypes
