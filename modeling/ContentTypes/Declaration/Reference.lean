import ContentTypes.Declaration.Import
import ContentTypes.Text.CaseMap

/-!
# Names of declarations and references between them

The name of a declared type is a text in PascalCase. The types that a schema refers to are named by
the last part of their identifiers, as `api::tag.tag` by `tag`.

Entity files lie in the output directory and component files one level down, in `components`. The
same type is therefore reached by different relative paths from the two kinds of file.
-/

namespace ContentTypes.Declaration

def isWordSeparator (c : Char) : Bool :=
  c = '_' || c = '-' || c = ' '

/-- Joins the words of a text, the first character of each in upper case. `atStart` says whether
the next character begins a word. -/
def pascalFrom (atStart : Bool) : List Char → List Char
  | [] => []
  | c :: rest =>
    if isWordSeparator c then pascalFrom true rest
    else if atStart then Text.uppercase c ++ pascalFrom false rest
    else c :: pascalFrom false rest

def pascalCase (text : String) : String :=
  String.ofList (pascalFrom true text.toList)

def afterLast? (mark : List Char) : List Char → Option (List Char)
  | [] => none
  | c :: rest =>
    match afterLast? mark rest with
    | some tail => some tail
    | none => if mark.isPrefixOf (c :: rest) then some ((c :: rest).drop mark.length) else none

def afterLast (mark text : List Char) : List Char :=
  (afterLast? mark text).getD text

def localPart (uid : String) : String :=
  String.ofList (afterLast ['.'] (afterLast [':', ':'] uid.toList))

def typeName (uid : String) : String :=
  pascalCase (localPart uid)

def flatName (name : String) : String :=
  "CM_" ++ name

def userName : String := "User"

def mediaName : String := "Media"

def isUserTarget (target : String) : Bool :=
  target = "plugin::users-permissions.user" || target = "admin::user"

def targetName (target : String) : String :=
  if isUserTarget target then userName else typeName target

inductive ContentKind where
  | entity
  | component
  deriving DecidableEq, Repr

namespace ContentKind

def entityDir : ContentKind → String
  | entity => "./"
  | component => "../"

def componentDir : ContentKind → String
  | entity => "./components/"
  | component => "./"

/-- The path that would lead from the file of the type `name` to itself. -/
def ownPath (kind : ContentKind) (name : String) : String :=
  match kind with
  | entity => kind.entityDir ++ name
  | component => kind.componentDir ++ name

end ContentKind

/-- A type of another file: the names of its two declarations in this file, and the import that
binds them. -/
structure Reference where
  nested : String
  flat : String
  need : ImportNeed
  deriving DecidableEq, Repr

namespace Reference

def direct (name path : String) : Reference where
  nested := name
  flat := flatName name
  need := ⟨path, [{ name }, { name := flatName name }]⟩

def aliased (name other path : String) : Reference where
  nested := other
  flat := flatName other
  need := ⟨path, [⟨name, some other⟩, ⟨flatName name, some (flatName other)⟩]⟩

end Reference

/-- What references depend on: the kind of the file, and the names that it binds already. -/
structure Scope where
  kind : ContentKind
  taken : List String := []

namespace Scope

/-- In a component file entities have an alias, so that none hides a component of its name. -/
def relation (scope : Scope) (target : String) : Reference :=
  let name := targetName target
  let path := scope.kind.entityDir ++ name
  match scope.kind with
  | .entity => .direct name path
  | .component => .aliased name (name ++ "Entity") path

def component (scope : Scope) (uid : String) : Reference :=
  let name := typeName uid
  let path := scope.kind.componentDir ++ name
  if name ∈ scope.taken then .aliased name (name ++ "Component") path else .direct name path

def media (scope : Scope) : Reference :=
  .direct mediaName (scope.kind.entityDir ++ mediaName)

end Scope

end ContentTypes.Declaration
