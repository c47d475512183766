import ContentTypes.Declaration.Reference
import ContentTypes.Schema.Attribute
import ContentTypes.Text

/-!
# Properties of a declaration

An attribute becomes one property of the nested declaration and one of the flat declaration. A
password becomes neither.
-/

namespace ContentTypes.Declaration

open Schema

structure Property where
  key : String
  nested : String
  flat : String
  need? : Option ImportNeed := none
  deriving DecidableEq, Repr

namespace Property

def nestedLine (property : Property) : String :=
  property.key ++ ": " ++ property.nested ++ ";"

def flatLine (property : Property) : String :=
  property.key ++ ": " ++ property.flat ++ ";"

end Property

def isIdentifierStart (c : Char) : Bool :=
  c.isAlpha || c = '_' || c = '$'

def isIdentifierPart (c : Char) : Bool :=
  c.isAlphanum || c = '_' || c = '$'

/-- Whether a property name needs no quotes. Letters and digits are those of ASCII. -/
def isIdentifier (name : String) : Bool :=
  match name.toList with
  | [] => false
  | c :: rest => isIdentifierStart c && rest.all isIdentifierPart

def propertyKey (name : String) (optional : Bool) : String :=
  let key := if isIdentifier name then name else Text.SingleQuoted.encode name
  if optional then key ++ "?" else key

def optionsUnion : List String → String
  | [] => "never"
  | options => " | ".intercalate (options.map Text.SingleQuoted.encode)

structure TypePair where
  nested : String
  flat : String
  need? : Option ImportNeed := none

namespace TypePair

def same (type : String) : TypePair := ⟨type, type, none⟩

def arraySuffix (many : Bool) : String :=
  if many then "[]" else ""

/-- Entries of their own are wrapped in a `data` envelope, which the flat declaration drops. -/
def enveloped (reference : Reference) (many : Bool) : TypePair where
  nested := "\x7b data: " ++ reference.nested ++ arraySuffix many ++ " \x7d"
  flat := reference.flat ++ arraySuffix many
  need? := some reference.need

def embedded (reference : Reference) (many : Bool) : TypePair where
  nested := reference.nested ++ arraySuffix many
  flat := reference.flat ++ arraySuffix many
  need? := some reference.need

/-- The types for a kind of attribute. A moment arrives as text in the flat shape. -/
def ofKind? (scope : Scope) : AttributeKind → Option TypePair
  | .relation cardinality (some target) => some (enveloped (scope.relation target) cardinality.isToMany)
  | .relation _ none => some (same "any")
  | .component uid repeatable => some (embedded (scope.component uid) repeatable)
  | .media multiple => some (enveloped scope.media multiple)
  | .enumeration options => some (same (optionsUnion options))
  | .text _ => some (same "string")
  | .number _ => some (same "number")
  | .temporal _ => some ⟨"Date", "string", none⟩
  | .boolean => some (same "boolean")
  | .json => some (same "any")
  | .unrecognized => some (same "any")
  | .password => none

end TypePair

def Property.ofAttribute? (scope : Scope) (name : String) (a : Attribute) : Option Property :=
  (TypePair.ofKind? scope a.kind).map fun types =>
    ⟨propertyKey name a.isOptional, types.nested, types.flat, types.need?⟩

end ContentTypes.Declaration
