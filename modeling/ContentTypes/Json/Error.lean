import ContentTypes.Json.Value
import ContentTypes.Text

/-!
# What is wrong with a JSON text

What stands in a document, or in the settings, where something else is wanted (`Found`, `Wanted`), and the
values of a wanted type. `Error` holds the causes, those of grammar and those of content. While a text is
read, the place of an error is known by how many bytes lie behind it (`Fault`); at the end this becomes a
line and a column (`ReadError`).
-/

namespace ContentTypes

inductive Found where
  | null
  | boolean (value : Bool)
  | integer (value : Int)
  | float (value : Binary64)
  | string (text : String)
  | sequence
  | map
  deriving DecidableEq, Repr

inductive Wanted where
  | string
  | boolean
  | path
  | sequence
  | map
  | stringOrMap
  | unit
  | record (name : String)
  deriving DecidableEq, Repr

def Wanted.text : Wanted → String
  | string => "a string"
  | boolean => "a boolean"
  | path => "path string"
  | sequence => "a sequence"
  | map => "a map"
  | stringOrMap => "string or map"
  | unit => "unit"
  | record name => "struct " ++ name

namespace Json

def foundText : Found → String
  | .null => "null"
  | .boolean value => "boolean `" ++ toString value ++ "`"
  | .integer value => "integer `" ++ toString value ++ "`"
  | .float value => "floating point `" ++ value.compact ++ "`"
  | .string text => "string " ++ Text.doubleQuoted text
  | .sequence => "sequence"
  | .map => "map"

def Value.found : Value → Found
  | null => .null
  | boolean value => .boolean value
  | number (.integer value) => .integer value
  | number (.float value) => .float value
  | string text => .string text
  | array _ => .sequence
  | object _ => .map

inductive ContentError where
  | wrongType (found : Found) (wanted : Wanted)
  | notOneKey
  | tooShort (length : Nat) (record : String) (fields : Nat)
  | tooLong (length : Nat)
  | duplicateField (name : String)
  | missingField (name : String)
  deriving DecidableEq, Repr

def ContentError.message : ContentError → String
  | wrongType found wanted => "invalid type: " ++ foundText found ++ ", expected " ++ wanted.text
  | notOneKey => "invalid value: map, expected map with a single key"
  | tooShort length record fields =>
    "invalid length " ++ toString length ++ ", expected struct " ++ record ++ " with "
      ++ toString fields ++ " elements"
  | tooLong length =>
    "invalid length " ++ toString length ++ ", expected fewer elements in array"
  | duplicateField name => "duplicate field `" ++ name ++ "`"
  | missingField name => "missing field `" ++ name ++ "`"

namespace Value

def expectString : Value → Except ContentError String
  | string text => .ok text
  | value => .error (.wrongType value.found .string)

def expectBoolean : Value → Except ContentError Bool
  | boolean value => .ok value
  | value => .error (.wrongType value.found .boolean)

def expectPath : Value → Except ContentError String
  | string text => .ok text
  | value => .error (.wrongType value.found .path)

def expectItems {α : Type} (item : Value → Except ContentError α) :
    Value → Except ContentError (List α)
  | array items => items.mapM item
  | value => .error (.wrongType value.found .sequence)

def expectOptional {α : Type} (read : Value → Except ContentError α) :
    Value → Except ContentError (Option α)
  | null => .ok none
  | value => (read value).map some

end Value

inductive Error where
  | endInValue
  | endInString
  | endInList
  | endInObject
  | wordExpected
  | valueExpected
  | colonExpected
  | listCommaExpected
  | objectCommaExpected
  | keyNotString
  | trailingComma
  | trailingCharacters
  | invalidNumber
  | numberOutOfRange
  | controlCharacter
  | invalidEscape
  | hexEscapeEnds
  | loneSurrogate
  | tooDeep
  | content (error : ContentError)
  deriving DecidableEq, Repr

def Error.message : Error → String
  | endInValue => "EOF while parsing a value"
  | endInString => "EOF while parsing a string"
  | endInList => "EOF while parsing a list"
  | endInObject => "EOF while parsing an object"
  | wordExpected => "expected ident"
  | valueExpected => "expected value"
  | colonExpected => "expected `:`"
  | listCommaExpected => "expected `,` or `]`"
  | objectCommaExpected => "expected `,` or `\x7d`"
  | keyNotString => "key must be a string"
  | trailingComma => "trailing comma"
  | trailingCharacters => "trailing characters"
  | invalidNumber => "invalid number"
  | numberOutOfRange => "number out of range"
  | controlCharacter => "control character (\\u0000-\\u001F) found while parsing a string"
  | invalidEscape => "invalid escape"
  | hexEscapeEnds => "unexpected end of hex escape"
  | loneSurrogate => "lone leading surrogate in hex escape"
  | tooDeep => "recursion limit exceeded"
  | content error => error.message

def byteCount (text : List Char) : Nat :=
  text.foldr (fun c count => c.utf8Size + count) 0

structure Fault where
  error : Error
  bytesLeft : Nat
  deriving DecidableEq, Repr

namespace Fault

def before (error : Error) (rest : List Char) : Fault :=
  ⟨error, byteCount rest⟩

/-- An error at the first byte of `rest`, that byte being part of what was seen. -/
def inside (error : Error) (rest : List Char) : Fault :=
  ⟨error, byteCount rest - 1⟩

end Fault

structure Position where
  line : Nat
  /-- Bytes since the end of the line before. -/
  column : Nat
  deriving DecidableEq, Repr

def Position.advance (bytes : Nat) : Position → List Char → Position
  | start, [] => ⟨start.line, start.column⟩
  | start, c :: rest =>
    if bytes = 0 then start
    else if c = '\n' then advance (bytes - 1) ⟨start.line + 1, 0⟩ rest
    else if bytes < c.utf8Size then ⟨start.line, start.column + bytes⟩
    else advance (bytes - c.utf8Size) ⟨start.line, start.column + c.utf8Size⟩ rest

structure ReadError where
  error : Error
  position? : Option Position
  deriving DecidableEq, Repr

def ReadError.message (e : ReadError) : String :=
  match e.position? with
  | none => e.error.message
  | some p =>
    e.error.message ++ " at line " ++ toString p.line ++ " column " ++ toString p.column

def Fault.locate (text : List Char) (fault : Fault) : ReadError :=
  ⟨fault.error, some (Position.advance (byteCount text - fault.bytesLeft) ⟨1, 0⟩ text)⟩

end Json

end ContentTypes
