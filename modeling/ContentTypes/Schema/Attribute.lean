/-!
# Attributes of a content type

The closed set of attribute kinds, grouped by the type that their values have. A kind carries only
what the generated declarations depend on.
-/

namespace ContentTypes.Schema

inductive Cardinality where
  | oneToOne
  | oneToMany
  | manyToOne
  | manyToMany
  | oneWay
  | manyWay
  | morphToOne
  | morphToMany
  | morphOne
  | morphMany
  | other
  deriving DecidableEq, Repr

namespace Cardinality

def isToMany : Cardinality → Bool
  | oneToMany | manyToMany | manyWay | morphToMany | morphMany => true
  | oneToOne | manyToOne | oneWay | morphToOne | morphOne | other => false

/-- The cardinality that a schema writes as `text`; one that is not known is `other`. -/
def ofText (text : String) : Cardinality :=
  match text with
  | "oneToOne" => oneToOne
  | "oneToMany" => oneToMany
  | "manyToOne" => manyToOne
  | "manyToMany" => manyToMany
  | "oneWay" => oneWay
  | "manyWay" => manyWay
  | "morphToOne" => morphToOne
  | "morphToMany" => morphToMany
  | "morphOne" => morphOne
  | "morphMany" => morphMany
  | _ => other

end Cardinality

inductive TextKind where
  | string
  | text
  | richText
  | email
  | uid
  deriving DecidableEq, Repr

inductive NumberKind where
  | integer
  | bigInteger
  | decimal
  | float
  deriving DecidableEq, Repr

inductive TemporalKind where
  | date
  | dateTime
  | time
  deriving DecidableEq, Repr

inductive AttributeKind where
  /-- A polymorphic relation has no target. -/
  | relation (cardinality : Cardinality) (target : Option String)
  | component (uid : String) (repeatable : Bool)
  | media (multiple : Bool)
  | enumeration (options : List String)
  | text (kind : TextKind)
  | number (kind : NumberKind)
  | temporal (kind : TemporalKind)
  | boolean
  | json
  | password
  | unrecognized
  deriving DecidableEq, Repr

namespace AttributeKind

def name : AttributeKind → String
  | relation .. => "relation"
  | component .. => "component"
  | media _ => "media"
  | enumeration _ => "enumeration"
  | text .string => "string"
  | text .text => "text"
  | text .richText => "richtext"
  | text .email => "email"
  | text .uid => "uid"
  | number .integer => "integer"
  | number .bigInteger => "biginteger"
  | number .decimal => "decimal"
  | number .float => "float"
  | temporal .date => "date"
  | temporal .dateTime => "datetime"
  | temporal .time => "time"
  | boolean => "boolean"
  | json => "json"
  | password => "password"
  | unrecognized => "unrecognized"

def ofPlainName? (word : String) : Option AttributeKind :=
  match word with
  | "string" => some (text .string)
  | "text" => some (text .text)
  | "richtext" => some (text .richText)
  | "email" => some (text .email)
  | "uid" => some (text .uid)
  | "integer" => some (number .integer)
  | "biginteger" => some (number .bigInteger)
  | "decimal" => some (number .decimal)
  | "float" => some (number .float)
  | "date" => some (temporal .date)
  | "datetime" => some (temporal .dateTime)
  | "time" => some (temporal .time)
  | "boolean" => some boolean
  | "json" => some json
  | "password" => some password
  | _ => none

end AttributeKind

structure Attribute where
  kind : AttributeKind
  required : Option Bool := none
  deriving DecidableEq, Repr

/-- Only an attribute that is said not to be required is optional. -/
def Attribute.isOptional (a : Attribute) : Bool :=
  a.required == some false

end ContentTypes.Schema
