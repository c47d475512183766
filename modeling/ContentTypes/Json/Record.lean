import ContentTypes.Json.Skip

/-!
# Records in JSON

A record has a fixed list of fields. It is written as an object, in which each field stands at most
once among other members, or as an array with the fields in order.

An error in the content of a field is only placed once the end of the record has been looked for:
behind its closing bracket, if that comes next.
-/

namespace ContentTypes.Json

/-- A failure inside a record: one with a place, or one of content that the record will place. The
latter keeps the text from where it was found. -/
inductive Failure where
  | placed (fault : Fault)
  | unplaced (error : ContentError) (rest : List Char)

structure Field (σ : Type) where
  name : String
  required : Bool
  isSet : σ → Bool
  read : σ → List Char → Except Failure (σ × List Char)

structure Record (σ : Type) where
  name : String
  fields : List (Field σ)

def placed {α : Type} (result : Except Fault α) : Except Failure α :=
  result.mapError .placed

/-- The fault of a value that is not what is wanted. Scalars are read first, and may be faulty
themselves. -/
def mismatch {α : Type} (wanted : Wanted) (text : List Char) : Except Fault α :=
  match text with
  | '[' :: _ => .error (.before (.content (.wrongType .sequence wanted)) text)
  | '{' :: _ => .error (.before (.content (.wrongType .map wanted)) text)
  | _ => do
    let (value, rest) ← readScalar text
    throw (.before (.content (.wrongType value.found wanted)) rest)

def readOptional {α : Type} (read : List Char → Except Fault (α × List Char))
    (text : List Char) : Except Fault (Option α × List Char) :=
  match skipBlanks text with
  | 'n' :: rest => do pure (none, ← readWord ['u', 'l', 'l'] rest)
  | rest => do
    let (value, rest) ← read rest
    pure (some value, rest)

def readStringOnly (text : List Char) : Except Fault (String × List Char) :=
  match text with
  | '"' :: rest => readString [] rest
  | _ => mismatch .string text

namespace Record

variable {σ : Type}

def readMembers (record : Record σ) (limit : Nat) (isFirst : Bool) (state : σ) :
    (members : Nat) → List Char → Except Failure (σ × List Char)
  | 0, text => .error (.placed (.inside .endInObject text))
  | members + 1, text => do
    let (more, text) ← placed (nextKey isFirst text)
    if more then
      let (key, text) ← placed (readString [] text)
      match record.fields.find? (·.name = key) with
      | some field =>
        if field.isSet state then throw (.unplaced (.duplicateField field.name) text)
        let text ← placed (readColon text)
        let (state, text) ← field.read state text
        readMembers record limit false state members text
      | none =>
        let text ← placed (readColon text)
        let text ← placed (skipValue limit text)
        readMembers record limit false state members text
    else
      match record.fields.find? fun field => field.required && !field.isSet state with
      | some field => throw (.unplaced (.missingField field.name) text)
      | none => pure (state, text)

/-- Reads the fields of a record after its bracket. Fields at the end may be missing unless they are
required. -/
def readItems (record : Record σ) (isFirst : Bool) (index : Nat) (state : σ) :
    List (Field σ) → List Char → Except Failure (σ × List Char)
  | [], text => .ok (state, text)
  | field :: fields, text => do
    let (more, text) ← placed (nextItem isFirst text)
    if more then
      let (state, text) ← field.read state text
      readItems record false (index + 1) state fields text
    else if field.required then
      throw (.unplaced (.tooShort index record.name record.fields.length) text)
    else
      readItems record isFirst (index + 1) state fields text

def passObjectEnd (text : List Char) : List Char :=
  match skipBlanks text with
  | '}' :: rest => rest
  | rest => rest

def passArrayEnd (text : List Char) : List Char :=
  match skipBlanks text with
  | ']' :: rest => rest
  | ',' :: rest => skipBlanks rest
  | rest => rest

def readArrayEnd (text : List Char) : Except Fault (List Char) :=
  match skipBlanks text with
  | [] => .error (.inside .endInList [])
  | ']' :: rest => .ok rest
  | ',' :: rest =>
    match skipBlanks rest with
    | ']' :: rest => .error (.inside .trailingComma (']' :: rest))
    | rest => .error (.inside .trailingCharacters rest)
  | rest => .error (.inside .trailingCharacters rest)

/-- Gives a failure its place. `pass` looks for the end of the record. -/
def place (pass : List Char → List Char) : Failure → Fault
  | .placed fault => fault
  | .unplaced error rest => .before (.content error) (pass rest)

/-- Reads a record in which `room` arrays and objects may be nested, itself included. `fields` gives
the record for the room inside it. -/
def read (fields : (room : Nat) → Record σ) (limit : Nat) (start : σ) (room : Nat)
    (text : List Char) : Except Fault (σ × List Char) :=
  let record := fields (room - 1)
  match skipBlanks text with
  | '{' :: rest =>
    if room = 0 then .error (.inside .tooDeep ('{' :: rest))
    else do
      let (state, rest) ←
        (record.readMembers limit true start limit rest).mapError (place passObjectEnd)
      pure (state, passObjectEnd rest)
  | '[' :: rest =>
    if room = 0 then .error (.inside .tooDeep ('[' :: rest))
    else do
      let (state, rest) ←
        (record.readItems true 0 start record.fields rest).mapError (place passArrayEnd)
      pure (state, ← readArrayEnd rest)
  | rest => mismatch (.record record.name) rest

end Record

end ContentTypes.Json
