import ContentTypes.Json.Record
import ContentTypes.Schema.AttributeReading
import ContentTypes.Text.CodeSet

/-!
# Schema documents

A document gives the display names of a content type and its attributes in order. All attributes are
read as JSON values before the first of them is interpreted.
-/

namespace ContentTypes.Schema

open Json (Value ContentError Fault Failure Record ReadError)

structure Info where
  singularName : Option String := none
  pluralName : Option String := none
  displayName : Option String := none
  deriving DecidableEq, Repr

structure Document where
  info : Option Info
  attributes : List (String × Attribute)
  deriving DecidableEq, Repr

/-- The names read so far: a field that has been seen may have held `null`. -/
structure InfoDraft where
  singularName : Option (Option String) := none
  pluralName : Option (Option String) := none
  displayName : Option (Option String) := none

def InfoDraft.finish (draft : InfoDraft) : Info :=
  ⟨draft.singularName.join, draft.pluralName.join, draft.displayName.join⟩

def infoField (name : String) (isSet : InfoDraft → Bool)
    (set : InfoDraft → Option String → InfoDraft) : Json.Field InfoDraft where
  name
  required := false
  isSet
  read draft text := do
    let (value, rest) ← Json.placed (Json.readOptional Json.readStringOnly text)
    pure (set draft value, rest)

def infoRecord : Record InfoDraft where
  name := "SchemaInfo"
  fields := [
    infoField "singularName" (·.singularName.isSome) fun draft value =>
      { draft with singularName := some value },
    infoField "pluralName" (·.pluralName.isSome) fun draft value =>
      { draft with pluralName := some value },
    infoField "displayName" (·.displayName.isSome) fun draft value =>
      { draft with displayName := some value }]

def readInfo (limit room : Nat) (text : List Char) : Except Fault (Info × List Char) := do
  let (draft, rest) ← Record.read (fun _ => infoRecord) limit {} room text
  pure (draft.finish, rest)

def attributesOfMembers (members : List (String × Value)) :
    Except ContentError (List (String × Attribute)) :=
  members.mapM fun (name, value) => do pure (name, ← Attribute.ofValue value)

def readAttributes (limit room : Nat) (text : List Char) :
    Except Failure (List (String × Attribute) × List Char) :=
  match Json.skipBlanks text, room with
  | '{' :: rest, 0 => .error (.placed (.inside .tooDeep ('{' :: rest)))
  | '{' :: rest, room + 1 => do
    let (members, rest) ← Json.placed (Json.readMembers (Json.readValue limit room) [] limit rest)
    match attributesOfMembers (Assoc.ofList members) with
    | .ok attributes => pure (attributes, rest)
    | .error error => throw (.unplaced error rest)
  | text, _ => Json.placed (Json.mismatch .map text)

structure DocumentDraft where
  info : Option (Option Info) := none
  attributes : Option (List (String × Attribute)) := none

def documentRecord (limit room : Nat) : Record DocumentDraft where
  name := "ContentSchema"
  fields := [
    { name := "info"
      required := false
      isSet := (·.info.isSome)
      read := fun draft text => do
        let (info, rest) ← Json.placed (Json.readOptional (readInfo limit room) text)
        pure ({ draft with info := some info }, rest) },
    { name := "attributes"
      required := true
      isSet := (·.attributes.isSome)
      read := fun draft text => do
        let (attributes, rest) ← readAttributes limit room text
        pure ({ draft with attributes := some attributes }, rest) }]

namespace Document

def ofText (text : String) : Except ReadError Document :=
  Json.readText (fun limit text => do
    let (draft, rest) ← Record.read (documentRecord limit) limit {} Json.maximalDepth text
    pure (⟨draft.info.join, draft.attributes.getD []⟩, rest)) text

/-- The singular name, unless it is blank. -/
def singularName? (document : Document) : Option String := do
  let name ← (← document.info).singularName
  if name.toList.all Text.isBlank then none else some name

end Document

def Attribute.ofText (text : String) : Except ReadError Attribute := do
  let characters := text.toList
  let limit := Json.itemLimit characters
  match Json.readValue limit Json.maximalDepth characters with
  | .error fault => throw (fault.locate characters)
  | .ok (value, rest) =>
    let a ← (Attribute.ofValue value).mapError fun error => ⟨.content error, none⟩
    match Json.readEnd rest with
    | .error fault => throw (fault.locate characters)
    | .ok () => pure a

end ContentTypes.Schema
