import ContentTypes.Numeral
import ContentTypes.Settings.Setting

/-!
# Settings from environment variables

A variable counts if its name begins with `TYPEGEN__` in any case. The rest of the name, with a dot for
each double underscore, is the key; the value is what the text looks like.
-/

namespace ContentTypes.Settings

def variablePrefix : List Char := "typegen__".toList

def environmentName : String := "the environment"

def dotted : List Char → List Char
  | '_' :: '_' :: rest => '.' :: dotted rest
  | c :: rest => c :: dotted rest
  | [] => []

def variableKey? (name : String) : Option String :=
  let name := (Text.lowercase name).toList
  if variablePrefix.isPrefixOf name then
    some (String.ofList (dotted (name.drop variablePrefix.length)))
  else none

def integerOfText? (text : String) : Option Int :=
  let (negative, digits) := Binary64.splitSign text.toList
  if digits = [] ∨ ¬digits.all Char.isDigit then none
  else Integer64.ofSize? negative (Binary64.numberOf digits)

def booleanOfText? (text : String) : Option Bool :=
  match text.toList.map Char.toLower with
  | ['t', 'r', 'u', 'e'] => some true
  | ['f', 'a', 'l', 's', 'e'] => some false
  | _ => none

def commaParts (text : String) : List String :=
  (text.toList.splitOn ',').map String.ofList

/-- A boolean, an integer, a number, a list if the key is `include`, or else a text. -/
def variableValue (key text : String) : Setting :=
  let origin := some environmentName
  match booleanOfText? text with
  | some value => .boolean origin value
  | none =>
    match integerOfText? text with
    | some value => .integer origin value
    | none =>
      match Binary64.ofText? text with
      | some value => .float origin value
      | none =>
        if key = "include" then .sequence origin ((commaParts text).map (.text origin))
        else .text origin text

def ofEnvironment (environment : List (String × String)) : List (String × Setting) :=
  environment.filterMap fun (name, text) =>
    (variableKey? name).map fun key => (key, variableValue key text)

end ContentTypes.Settings
