import ContentTypes.Json.Error
import ContentTypes.Schema.Attribute

/-!
# Attributes from JSON

A value that is no object, or has no known kind, is an attribute of unrecognized kind. Of a known kind
the fields are read in the order in which they stand, and the first one that is wrong is reported;
members that are no fields of the kind count for nothing.
-/

namespace ContentTypes.Schema

open Json (Value ContentError)

abbrev Members := List (String × Value)

/-- A cardinality is written as its name, or as an object with its name as only key. -/
def Cardinality.read : Value → Except ContentError Cardinality
  | .string text => .ok (ofText text)
  | .object [(key, value)] =>
    match value with
    | .null | .object [] => .ok (ofText key)
    | value => .error (.wrongType value.found .unit)
  | .object _ => .error .notOneKey
  | value => .error (.wrongType value.found .stringOrMap)

/-- Goes through the members in order. `read` gives what a member changes, or nothing for one that is
not a field. -/
def readFields {σ : Type} (read : String → Value → σ → Option (Except ContentError σ)) (start : σ)
    (members : Members) : Except ContentError σ :=
  members.foldlM (fun state (key, value) => (read key value state).getD (.ok state)) start

structure RelationFields where
  cardinality : Cardinality := .oneToOne
  target : Option String := none

def readRelation (members : Members) : Except ContentError AttributeKind := do
  let fields ← readFields (σ := RelationFields) (fun key value fields =>
    match key with
    | "relation" => some do pure { fields with cardinality := ← Cardinality.read value }
    | "target" => some do pure { fields with target := ← value.expectOptional Value.expectString }
    | _ => none) {} members
  pure (.relation fields.cardinality fields.target)

structure ComponentFields where
  uid? : Option String := none
  repeatable : Bool := false

def readComponent (members : Members) : Except ContentError AttributeKind := do
  let fields ← readFields (σ := ComponentFields) (fun key value fields =>
    match key with
    | "component" => some do pure { fields with uid? := some (← value.expectString) }
    | "repeatable" => some do pure { fields with repeatable := ← value.expectBoolean }
    | _ => none) {} members
  match fields.uid? with
  | some uid => pure (.component uid fields.repeatable)
  | none => throw (.missingField "component")

def readMedia (members : Members) : Except ContentError AttributeKind := do
  let multiple ← readFields (fun key value _ =>
    match key with
    | "multiple" => some value.expectBoolean
    | _ => none) false members
  pure (.media multiple)

def readEnumeration (members : Members) : Except ContentError AttributeKind := do
  let options ← readFields (fun key value _ =>
    match key with
    | "enum" => some (value.expectItems Value.expectString)
    | _ => none) [] members
  pure (.enumeration options)

def AttributeKind.read (name : String) (members : Members) : Except ContentError AttributeKind :=
  match name with
  | "relation" => readRelation members
  | "component" => readComponent members
  | "media" => readMedia members
  | "enumeration" => readEnumeration members
  | _ => .ok ((ofPlainName? name).getD .unrecognized)

def requiredFlag? (value : Value) : Option Bool :=
  match value.member? "required" with
  | some (.boolean flag) => some flag
  | _ => none

def Attribute.ofValue (value : Value) : Except ContentError Attribute := do
  let kind ← match value with
    | .object members =>
      match members.lookup "type" with
      | some (.string name) => AttributeKind.read name members
      | _ => .ok .unrecognized
    | _ => .ok .unrecognized
  pure ⟨kind, requiredFlag? value⟩

end ContentTypes.Schema
