import ContentTypes.Assoc
import ContentTypes.Json.Error
import ContentTypes.Numeral
import ContentTypes.Text.CaseMap
import ContentTypes.Toml.Value

/-!
# Values of settings

What the sources of settings say, before it is known which types are wanted. A value remembers the
source that it comes from; a table that was put together from several does not.
-/

namespace ContentTypes

abbrev Origin := Option String

inductive Setting where
  | null (origin : Origin)
  | boolean (origin : Origin) (value : Bool)
  | integer (origin : Origin) (value : Int)
  | float (origin : Origin) (value : Binary64)
  | text (origin : Origin) (value : String)
  | sequence (origin : Origin) (items : List Setting)
  | table (origin : Origin) (entries : List (String × Setting))

namespace Setting

def origin : Setting → Origin
  | null origin | boolean origin _ | integer origin _ | float origin _ | text origin _
  | sequence origin _ | table origin _ => origin

def found : Setting → Found
  | null _ => .null
  | boolean _ value => .boolean value
  | integer _ value => .integer value
  | float _ value => .float value
  | text _ value => .string value
  | sequence _ _ => .sequence
  | table _ _ => .map

def entries : Setting → List (String × Setting)
  | table _ entries => entries
  | _ => []

def items : Setting → List Setting
  | sequence _ items => items
  | _ => []

/-- Puts entries into a table. What is no table becomes one. -/
def withEntries (entries : List (String × Setting)) : Setting → Setting
  | table origin _ => table origin entries
  | _ => table none entries

def withItems (items : List Setting) : Setting → Setting
  | sequence origin _ => sequence origin items
  | _ => sequence none items

mutual

def ofToml (origin : Origin) : Toml.Value → Setting
  | .string value => text origin value
  | .integer value => integer origin value
  | .float value => float origin value
  | .boolean value => boolean origin value
  | .moment value => text origin value.text
  | .array items => sequence origin (itemsOfToml origin items)
  | .table entries => table origin (entriesOfToml origin entries)

def itemsOfToml (origin : Origin) : List Toml.Value → List Setting
  | [] => []
  | value :: rest => ofToml origin value :: itemsOfToml origin rest

def entriesOfToml (origin : Origin) : List (String × Toml.Value) → List (String × Setting)
  | [] => []
  | (key, value) :: rest => (key, ofToml origin value) :: entriesOfToml origin rest

end

mutual

/-- An integer that needs more than 63 bits becomes a floating-point number. -/
def ofJson (origin : Origin) : Json.Value → Setting
  | .null => null origin
  | .boolean value => boolean origin value
  | .number (.integer value) =>
    if value < Integer64.signedLimit then integer origin value else float origin (.ofNat value.toNat)
  | .number (.float value) => float origin value
  | .string value => text origin value
  | .array items => sequence origin (itemsOfJson origin items)
  | .object members => table origin (entriesOfJson origin members)

def itemsOfJson (origin : Origin) : List Json.Value → List Setting
  | [] => []
  | value :: rest => ofJson origin value :: itemsOfJson origin rest

def entriesOfJson (origin : Origin) : List (String × Json.Value) → List (String × Setting)
  | [] => []
  | (key, value) :: rest => (key, ofJson origin value) :: entriesOfJson origin rest

end

mutual

/-- Sets an entry under its key in lower case. A table is merged into the one that is there, anything
else takes the place of what is there. -/
def setEntry (key : String) (entries : List (String × Setting)) :
    Setting → List (String × Setting)
  | table _ incoming =>
    let key := Text.lowercase key
    let target := (entries.lookup key).getD (table none [])
    Assoc.set key (setEntries target incoming) entries
  | value => Assoc.set (Text.lowercase key) value entries

def setEntries (target : Setting) : List (String × Setting) → Setting
  | [] => target
  | (key, value) :: rest =>
    setEntries (target.withEntries (setEntry key target.entries value)) rest

end

end Setting

end ContentTypes
