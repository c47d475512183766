import ContentTypes.Declaration.Unit
import ContentTypes.Proofs.Outcome

/-!
# Passwords leave no trace

A password takes no name, has no property and needs no import. The unit of an attribute list is that of
the list without its passwords, wherever these stand among attributes that refer to one another:
`ofAttributes_withoutPasswords`. Hence schemas that differ in nothing but their passwords have the same
units, and the same texts are written for them.
-/

namespace ContentTypes

open Schema (Attribute Document)

namespace Schema

def withoutPasswords (attributes : List (String × Attribute)) : List (String × Attribute) :=
  attributes.filter (·.2.kind ≠ .password)

theorem filterMap_withoutPasswords {α : Type} {f : String × Attribute → Option α}
    (h : ∀ member, member.2.kind = .password → f member = none)
    (attributes : List (String × Attribute)) :
    (withoutPasswords attributes).filterMap f = attributes.filterMap f := by
  induction attributes with
  | nil => rfl
  | cons member attributes ih =>
    unfold withoutPasswords at ih ⊢
    by_cases hpassword : member.2.kind = .password
    · rw [List.filter_cons_of_neg (by simpa using hpassword), ih,
        List.filterMap_cons_none (h member hpassword)]
    · rw [List.filter_cons_of_pos (by simpa using hpassword), List.filterMap_cons,
        List.filterMap_cons, ih]

/-- Two documents that differ at most in their passwords: in which there are, where they stand, what they
are called and whether they are required. -/
structure Document.SameButPasswords (document other : Document) : Prop where
  info : document.info = other.info
  attributes : withoutPasswords document.attributes = withoutPasswords other.attributes

theorem Document.SameButPasswords.singularName? {document other : Document}
    (h : document.SameButPasswords other) : document.singularName? = other.singularName? := by
  rw [Document.singularName?, Document.singularName?, h.info]

end Schema

namespace Declaration

open Schema

variable {kind : ContentKind} {name : String} {attributes : List (String × Attribute)}

theorem boundName?_of_password {a : Attribute} (h : a.kind = .password) : boundName? kind a = none := by
  rw [boundName?, h]

theorem Property.ofAttribute?_of_password {scope : Scope} {key : String} {a : Attribute}
    (h : a.kind = .password) : Property.ofAttribute? scope key a = none := by
  rw [Property.ofAttribute?, h]
  rfl

theorem takenNames_withoutPasswords :
    takenNames kind name (withoutPasswords attributes) = takenNames kind name attributes := by
  simp only [takenNames,
    filterMap_withoutPasswords fun _ hpassword => boundName?_of_password hpassword]

namespace GeneratedUnit

theorem ofAttributes_withoutPasswords :
    ofAttributes kind name (withoutPasswords attributes) = ofAttributes kind name attributes := by
  rw [ofAttributes, ofAttributes, takenNames_withoutPasswords,
    filterMap_withoutPasswords fun _ hpassword => Property.ofAttribute?_of_password hpassword]

variable {source source' : String} {document document' : Document}

theorem ofAttributes_of_sameButPasswords (h : document.SameButPasswords document') :
    ofAttributes kind name document.attributes = ofAttributes kind name document'.attributes := by
  rw [← ofAttributes_withoutPasswords, h.attributes, ofAttributes_withoutPasswords]

theorem ofEntity_eq_of_ofText (h : Document.ofText source = .ok document) : ofEntity source =
    match document.singularName? with
    | some name => .ok (ofAttributes .entity (pascalCase name) document.attributes)
    | none => .error .unnamed := by
  have hread : (Document.ofText source).mapError SchemaError.malformed = .ok document :=
    mapError_eq_ok.2 h
  rw [ofEntity, hread]
  rfl

theorem ofComponent_eq_of_ofText (h : Document.ofText source = .ok document) (stem : String) :
    ofComponent source stem = .ok (ofAttributes .component (pascalCase stem) document.attributes) := by
  have hread : (Document.ofText source).mapError SchemaError.malformed = .ok document :=
    mapError_eq_ok.2 h
  rw [ofComponent, hread]
  rfl

theorem ofEntity_of_sameButPasswords (hsource : Document.ofText source = .ok document)
    (hsource' : Document.ofText source' = .ok document') (h : document.SameButPasswords document') :
    ofEntity source = ofEntity source' := by
  rw [ofEntity_eq_of_ofText hsource, ofEntity_eq_of_ofText hsource', h.singularName?]
  simp only [ofAttributes_of_sameButPasswords h]

theorem ofComponent_of_sameButPasswords (hsource : Document.ofText source = .ok document)
    (hsource' : Document.ofText source' = .ok document') (h : document.SameButPasswords document')
    (stem : String) : ofComponent source stem = ofComponent source' stem := by
  rw [ofComponent_eq_of_ofText hsource, ofComponent_eq_of_ofText hsource',
    ofAttributes_of_sameButPasswords h]

/-- The passwords of an attribute list can be left out without a change to the unit; so schemas that
differ in nothing but passwords have the same units, or fail alike, and the same texts. -/
theorem passwords_leave_no_trace :
    (∀ kind name attributes,
      ofAttributes kind name attributes = ofAttributes kind name (withoutPasswords attributes)) ∧
    ∀ source source' document document', Document.ofText source = .ok document →
      Document.ofText source' = .ok document' → document.SameButPasswords document' →
        ofEntity source = ofEntity source' ∧
        (ofEntity source).map render = (ofEntity source').map render ∧
        ∀ stem, ofComponent source stem = ofComponent source' stem ∧
          (ofComponent source stem).map render = (ofComponent source' stem).map render := by
  refine ⟨fun _ _ _ => ofAttributes_withoutPasswords.symm, ?_⟩
  intro source source' document document' hsource hsource' h
  have hentity := ofEntity_of_sameButPasswords hsource hsource' h
  refine ⟨hentity, by rw [hentity], fun stem => ?_⟩
  have hcomponent := ofComponent_of_sameButPasswords hsource hsource' h stem
  exact ⟨hcomponent, by rw [hcomponent]⟩

def accountSource : String :=
  "\x7b\"attributes\":\x7b\"badge\":\x7b\"type\":\"component\",\"component\":\"a.media\"\x7d,"
    ++ "\"cover\":\x7b\"type\":\"media\"\x7d\x7d\x7d"

def guardedSource : String :=
  "\x7b\"attributes\":\x7b\"key\":\x7b\"type\":\"password\",\"required\":true\x7d,"
    ++ "\"badge\":\x7b\"type\":\"component\",\"component\":\"a.media\"\x7d,"
    ++ "\"pin\":\x7b\"type\":\"password\"\x7d,\"cover\":\x7b\"type\":\"media\"\x7d\x7d\x7d"

/-- The badge has an alias because of the upload, with the passwords as without them. -/
theorem passwords_leave_no_trace_of_account :
    ofComponent guardedSource "account" = ofComponent accountSource "account" ∧
      ∃ unit, ofComponent accountSource "account" = .ok unit ∧
        unit.flat = ["badge: CM_MediaComponent;", "cover: CM_Media;"] := by
  have haccount : Document.ofText accountSource = .ok ⟨none,
      [("badge", ⟨.component "a.media" false, none⟩), ("cover", ⟨.media false, none⟩)]⟩ := by
    decide +kernel
  have hguarded : Document.ofText guardedSource = .ok ⟨none,
      [("key", ⟨.password, some true⟩), ("badge", ⟨.component "a.media" false, none⟩),
        ("pin", ⟨.password, none⟩), ("cover", ⟨.media false, none⟩)]⟩ := by
    decide +kernel
  obtain ⟨-, -, hcomponent⟩ := passwords_leave_no_trace.2 _ _ _ _ hguarded haccount ⟨rfl, rfl⟩
  exact ⟨(hcomponent "account").1, _, ofComponent_eq_of_ofText haccount "account", by decide +kernel⟩

end GeneratedUnit

end Declaration

end ContentTypes
