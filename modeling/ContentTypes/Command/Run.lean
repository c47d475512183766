import ContentTypes.Command.Arguments
import ContentTypes.Json.Value
import ContentTypes.Project.Drift
import ContentTypes.Settings.Load

/-!
# Commands

What each command does to the files, what it prints, and its exit code: 0 if all is well, 1 for a
failure or for drift, 2 for a command line that cannot be understood.
-/

namespace ContentTypes.Command

open Settings (LoadError Sources)

inductive Failure where
  | notLoaded (error : LoadError)
  | notShown (error : LoadError)
  | notWritten (error : FileError)
  | notRead (error : FileError)
  | alreadyThere (path : Path)
  | notCreated (error : FileError)
  deriving DecidableEq, Repr

def fileFailureText (error : FileError) : String :=
  error.report ++ ": " ++ error.message

def Failure.message : Failure → String
  | notLoaded error => "failed to load configuration: " ++ error.message
  | notShown error => error.message
  | notWritten error => "failed to write generated types: " ++ fileFailureText error
  | notRead error => "failed to read generated types: " ++ fileFailureText error
  | alreadyThere path => path.text ++ " already exists"
  | notCreated error => fileFailureText error

structure Outcome where
  code : Nat
  output : String := ""
  errors : String := ""
  deriving DecidableEq, Repr

def Outcome.ofFailure (failure : Failure) : Outcome where
  code := 1
  errors := "❌ Error: " ++ failure.message ++ "\n"

/-- What a command can use besides the files of the project. -/
structure Surroundings where
  userFile : Path
  environment : List (String × String)

def skippedText (skipped : List SkippedSchema) : String :=
  String.join (skipped.map fun schema =>
    "  ⚠️  skipped " ++ schema.path.text ++ ": " ++ schema.message ++ "\n")

def planText (project : Project) (plan : Plan) : String :=
  "🔍 Dry run - " ++ toString plan.files.length ++ " files planned\n"
    ++ String.join (plan.counts.map fun (kind, count) =>
      "  " ++ kind ++ ": " ++ toString count ++ "\n")
    ++ String.join (plan.files.map fun file => "  - " ++ (project.target file).text ++ "\n")
    ++ skippedText plan.skipped

def writeText (report : WriteReport) : String :=
  "✅ " ++ toString report.written.length ++ " written, " ++ toString report.unchanged
    ++ " unchanged, " ++ toString report.skipped.length ++ " skipped\n"
    ++ skippedText report.skipped

def driftText (withDiffs : Bool) (report : DriftReport) : String :=
  String.join (report.missing.map fun path => "  ➕ missing: " ++ path.text ++ "\n")
    ++ String.join (report.changed.map fun drift =>
      "  ✏️  changed: " ++ drift.path.text ++ " (+" ++ toString drift.difference.added ++ " -"
        ++ toString drift.difference.removed ++ ")\n"
        ++ if withDiffs then drift.difference.text ++ "\n" else "")
    ++ skippedText report.skipped

def checkOutcome (asJson withDiffs : Bool) (report : DriftReport) : Outcome :=
  let output := if asJson then report.toJson.print ++ "\n" else driftText withDiffs report
  if report.hasDrift then
    { code := 1
      output
      errors := "\n⚠️  " ++ toString report.missing.length ++ " missing, "
        ++ toString report.changed.length ++ " changed - run `schema-typegen generate`\n" }
  else
    { code := 0
      output
      errors := "\n✅ " ++ toString report.upToDate ++ " files up to date\n" }

def settingsText (settings : Settings) : String :=
  "✅ Configuration is valid\n"
    ++ "   API dir: " ++ settings.directories.api.text ++ "\n"
    ++ "   Components dir: " ++ settings.directories.components.text ++ "\n"
    ++ "   Output dir: " ++ settings.directories.output.text ++ "\n"
    ++ "   Includes: " ++ toString settings.includes.length ++ "\n"

def generate (tree : FileTree) (project : Project) : FileTree × Outcome :=
  match project.run tree with
  | (tree, .ok report) => (tree, { code := 0, output := writeText report })
  | (tree, .error error) => (tree, .ofFailure (.notWritten error))

def check (tree : FileTree) (project : Project) (asJson withDiffs : Bool) : Outcome :=
  match project.check tree (project.plan tree) with
  | .ok report => checkOutcome asJson withDiffs report
  | .error error => .ofFailure (.notRead error)

def createSettings (tree : FileTree) (path : Path) : FileTree × Outcome :=
  if tree.pathExists path then (tree, .ofFailure (.alreadyThere path))
  else
    match tree.writeText path ({} : Settings).toToml with
    | .ok tree => (tree, { code := 0, output := "✅ Created config file: " ++ path.text ++ "\n" })
    | .error error => (tree, .ofFailure (.notCreated error))

namespace Invocation

def sources (surroundings : Surroundings) (invocation : Invocation) : Sources where
  root := invocation.root
  userFile := surroundings.userFile
  explicit? := invocation.config?
  environment := surroundings.environment

def perform (surroundings : Surroundings) (tree : FileTree) (invocation : Invocation) :
    FileTree × Outcome :=
  let settings := Settings.load tree (invocation.sources surroundings)
  match invocation.request, settings with
  | .generate _, .error error => (tree, .ofFailure (.notLoaded error))
  | .generate true, .ok settings =>
    let project : Project := ⟨invocation.root, settings⟩
    (tree, { code := 0, output := planText project (project.plan tree) })
  | .generate false, .ok settings => generate tree ⟨invocation.root, settings⟩
  | .check _ _, .error error => (tree, .ofFailure (.notLoaded error))
  | .check asJson withDiffs, .ok settings =>
    (tree, check tree ⟨invocation.root, settings⟩ asJson withDiffs)
  | .showSettings, .error error => (tree, .ofFailure (.notShown error))
  | .showSettings, .ok settings => (tree, { code := 0, output := settings.toToml ++ "\n" })
  | .createSettings output, _ => createSettings tree (invocation.root.join output)
  | .validateSettings, .error error =>
    (tree, { code := 1, errors := "❌ Configuration error: " ++ error.message ++ "\n" })
  | .validateSettings, .ok settings => (tree, { code := 0, output := settingsText settings })

end Invocation

def versionText : String := "schema-typegen 0.1.0\n"

def usageText : String :=
  "Generate TypeScript interfaces from content-type schemas\n\n"
    ++ "Usage: schema-typegen [OPTIONS] [COMMAND]\n\n"
    ++ "Commands:\n"
    ++ "  generate [--dry-run]             write all declaration files (default)\n"
    ++ "  check [-f|--format F] [--diff]   report files that are missing or out of date\n"
    ++ "  config show                      show the settings\n"
    ++ "  config init [-o|--output PATH]   write a file with the default settings\n"
    ++ "  config validate                  check the settings\n\n"
    ++ "Options:\n"
    ++ "  -r, --root DIR       root of the project\n"
    ++ "  -c, --config FILE    a further file of settings\n"
    ++ "  -v, --verbose        accepted everywhere\n"
    ++ "  -h, --help           show this text\n"
    ++ "  -V, --version        show the version\n"

def Stop.outcome : Stop → Outcome
  | misuse => { code := 2, errors := usageText }
  | help => { code := 0, output := usageText }
  | version => { code := 0, output := versionText }

def run (surroundings : Surroundings) (tree : FileTree) (arguments : List String) :
    FileTree × Outcome :=
  match Invocation.ofArguments arguments with
  | .ok invocation => invocation.perform surroundings tree
  | .error stop => (tree, stop.outcome)

end ContentTypes.Command
