import ContentTypes.Path

/-!
# Command lines

A command line names a command, which may be nested in another, and gives options before and after
it. Each level of commands has its options; those on the root, the settings and verbosity may stand at
every level, and count where they are given innermost. At one level no option may be given twice.
-/

namespace ContentTypes.Command

inductive OptionName where
  | root
  | config
  | verbose
  | help
  | version
  | dryRun
  | format
  | diff
  | output
  deriving DecidableEq, Repr

namespace OptionName

def long : OptionName → String
  | root => "root"
  | config => "config"
  | verbose => "verbose"
  | help => "help"
  | version => "version"
  | dryRun => "dry-run"
  | format => "format"
  | diff => "diff"
  | output => "output"

def short? : OptionName → Option Char
  | root => some 'r'
  | config => some 'c'
  | verbose => some 'v'
  | help => some 'h'
  | version => some 'V'
  | format => some 'f'
  | output => some 'o'
  | dryRun | diff => none

def takesValue : OptionName → Bool
  | root | config | format | output => true
  | verbose | help | version | dryRun | diff => false

/-- A path may not be empty. -/
def accepts (option : OptionName) (value : String) : Bool :=
  option = format || value ≠ ""

end OptionName

inductive Level where
  | program
  | generate
  | check
  | config
  | showSettings
  | createSettings
  | validateSettings
  deriving DecidableEq, Repr

namespace Level

def ownOptions : Level → List OptionName
  | program => [.version]
  | generate => [.dryRun]
  | check => [.format, .diff]
  | createSettings => [.output]
  | config | showSettings | validateSettings => []

def options (level : Level) : List OptionName :=
  [.root, .config, .verbose, .help] ++ level.ownOptions

def commands : Level → List (String × Level)
  | program => [("generate", .generate), ("check", .check), ("config", .config)]
  | config => [("show", .showSettings), ("init", .createSettings), ("validate", .validateSettings)]
  | _ => []

def needsCommand (level : Level) : Bool :=
  level = config

end Level

inductive Stop where
  | misuse
  | help
  | version
  deriving DecidableEq, Repr

/-- Options with their values; one without a value has an empty text. -/
abbrev Given := List (OptionName × String)

def Given.add (given : Given) (option : OptionName) (value : String) : Except Stop Given :=
  if option = .help then .error .help
  else if option = .version then .error .version
  else if (given.lookup option).isSome then .error .misuse
  else if option.takesValue && !option.accepts value then .error .misuse
  else .ok ((option, value) :: given)

/-- Whether an argument is written as an option. A single `-` is not. -/
def isOption (argument : List Char) : Bool :=
  argument.head? = some '-' && argument ≠ ['-']

/-- Reads the letters of an argument such as `-vr`. Gives the option that still needs a value. -/
def readLetters (level : Level) (given : Given) :
    List Char → Except Stop (Given × Option OptionName)
  | [] => .ok (given, none)
  | letter :: rest =>
    match level.options.find? (·.short? = some letter) with
    | none => .error .misuse
    | some option =>
      if option.takesValue then
        match rest with
        | [] => .ok (given, some option)
        | '=' :: value => do pure (← given.add option (String.ofList value), none)
        | value => do pure (← given.add option (String.ofList value), none)
      else do readLetters level (← given.add option "") rest

def readWord (level : Level) (given : Given) (word : List Char) :
    Except Stop (Given × Option OptionName) :=
  let name := word.takeWhile (· ≠ '=')
  match level.options.find? (·.long = String.ofList name), word.drop name.length with
  | none, _ => .error .misuse
  | some option, [] =>
    if option.takesValue then .ok (given, some option)
    else do pure (← given.add option "", none)
  | some option, _ :: value =>
    if option.takesValue then do pure (← given.add option (String.ofList value), none)
    else .error .misuse

def readOption (level : Level) (given : Given) :
    List Char → Except Stop (Given × Option OptionName)
  | '-' :: '-' :: word => readWord level given word
  | '-' :: letters => readLetters level given letters
  | _ => .error .misuse

def readHelp : Level → List String → Stop
  | _, [] => .help
  | level, name :: names =>
    match level.commands.lookup name with
    | some level => readHelp level names
    | none => .misuse

/-- Reads arguments at a level. `outer` are the options of the levels around it, and `waiting` is an
option whose value comes next. -/
def readArguments (level : Level) (outer given : Given) :
    (waiting : Option OptionName) → List String → Except Stop (Level × Given)
  | some _, [] => .error .misuse
  | none, [] => if level.needsCommand then .error .misuse else .ok (level, given ++ outer)
  | some option, argument :: rest =>
    if isOption argument.toList then .error .misuse
    else do readArguments level outer (← given.add option argument) none rest
  | none, argument :: rest =>
    if argument = "--" then
      if rest.isEmpty && !level.needsCommand then .ok (level, given ++ outer) else .error .misuse
    else if isOption argument.toList then do
      let (given, waiting) ← readOption level given argument.toList
      readArguments level outer given waiting rest
    else
      match level.commands.lookup argument with
      | some inner => readArguments inner (given ++ outer) [] none rest
      | none =>
        if argument = "help" ∧ level.commands ≠ [] then .error (readHelp level rest)
        else .error .misuse

inductive Request where
  | generate (dryRun : Bool)
  | check (asJson withDiffs : Bool)
  | showSettings
  | createSettings (output : Path)
  | validateSettings
  deriving DecidableEq, Repr

structure Invocation where
  root : Path
  config? : Option Path
  request : Request
  deriving DecidableEq, Repr

namespace Given

def path? (given : Given) (option : OptionName) : Option Path :=
  (given.lookup option).map Path.mk

def has (given : Given) (option : OptionName) : Bool :=
  (given.lookup option).isSome

end Given

/-- The request of a command. The program by itself generates. -/
def Level.request (given : Given) : Level → Request
  | program | generate => .generate (given.has .dryRun)
  | check => .check (given.lookup .format = some "json") (given.has .diff)
  | config | showSettings => .showSettings
  | createSettings => .createSettings ((given.path? .output).getD ⟨"typegen.toml"⟩)
  | validateSettings => .validateSettings

namespace Invocation

def ofArguments (arguments : List String) : Except Stop Invocation := do
  let (level, given) ← readArguments .program [] [] none arguments
  pure {
    root := (given.path? .root).getD ⟨"."⟩
    config? := given.path? .config
    request := level.request given }

end Invocation

end ContentTypes.Command
