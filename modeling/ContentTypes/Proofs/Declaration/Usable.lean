import ContentTypes.Proofs.Declaration.Closed
import ContentTypes.Proofs.Declaration.EntityImports

/-!
# Usable type names

Nothing looks at the characters of a name: PascalCase takes the separators out and changes letters, and
all else of the text stays. So a name made of a text with a word in it is not empty, and whether it can
be used as the name of a type is seen from that text: `typeNames_of_madeFrom`.
-/

namespace ContentTypes.Declaration

open Schema (Attribute AttributeKind Document)
open Text (IsImage IsSmall)

/-- Whether a character may stand in the name of a type, as far as ASCII says. -/
def IsPlain (c : Char) : Prop :=
  c.toNat < 128 → isIdentifierPart c = true

instance : DecidablePred IsPlain := fun c =>
  inferInstanceAs (Decidable (c.toNat < 128 → isIdentifierPart c = true))

instance (chars : List Char) : Decidable (∀ c ∈ chars, IsPlain c) :=
  List.decidableBAll _ chars

def BeginsWithDigit (text : List Char) : Prop :=
  ∃ c, text.head? = some c ∧ c.isDigit = true

instance (text : List Char) : Decidable (BeginsWithDigit text) :=
  decidable_of_iff (text.head?.any (·.isDigit)) (by cases h : text.head? <;> simp [BeginsWithDigit, h])

/-- What the name of a type has to be like. -/
structure IsUsable (name : String) : Prop where
  nonempty : name ≠ ""
  begins : ¬BeginsWithDigit name.toList
  plain : ∀ c ∈ name.toList, IsPlain c

instance : DecidablePred IsUsable := fun name =>
  decidable_of_iff (name ≠ "" ∧ ¬BeginsWithDigit name.toList ∧ ∀ c ∈ name.toList, IsPlain c)
    ⟨fun ⟨h, h', h''⟩ => ⟨h, h', h''⟩, fun ⟨h, h', h''⟩ => ⟨h, h', h''⟩⟩

def wordChars (text : String) : List Char :=
  text.toList.filter fun c => !isWordSeparator c

structure NamesUsably (text : String) : Prop where
  begins : ¬BeginsWithDigit (wordChars text)
  plain : ∀ c ∈ wordChars text, IsPlain c

-- ---------------------------------------------------------------------------
-- Names in PascalCase
-- ---------------------------------------------------------------------------

theorem of_ascii {P : Char → Prop} (h : ∀ code < 128, P (Char.ofNat code)) {c : Char}
    (hascii : c.toNat < 128) : P c := by
  simpa using h c.toNat hascii

theorem isPlain_of_letter {c : Char} (hletter : 0x41 ≤ c.toNat ∧ c.toNat ≤ 0x5A ∨ IsSmall c) :
    IsPlain c := fun hascii =>
  of_ascii (P := fun c => 0x41 ≤ c.toNat ∧ c.toNat ≤ 0x5A ∨ IsSmall c → isIdentifierPart c = true)
    (by decide +kernel) hascii hletter

theorem isPlain_of_isImage {c : Char} (h : IsImage c) : IsPlain c := by
  rcases h with hletter | hc
  · exact isPlain_of_letter (.inl hletter)
  · exact fun hascii => absurd hascii (Nat.not_lt.2 hc)

theorem isDigit_iff {c : Char} : c.isDigit = true ↔ 48 ≤ c.toNat ∧ c.toNat ≤ 57 := by
  simp [Char.isDigit, UInt32.le_iff_toNat_le]

theorem forall_recase_isPlain (atStart : Bool) (c : Char) :
    (∀ d ∈ recase atStart c, IsPlain d) ↔ IsPlain c := by
  rcases recase_cases atStart c with hkept | ⟨-, himages, hc⟩
  · simp [hkept]
  · refine iff_of_true (fun d hd => isPlain_of_isImage (himages d hd)) ?_
    exact hc.elim isPlain_of_isImage fun hsmall => isPlain_of_letter (.inr hsmall)

theorem beginsWithDigit_recase_append {atStart : Bool} {c : Char} {rest : List Char} :
    BeginsWithDigit (recase atStart c ++ rest) ↔ c.isDigit = true := by
  rcases recase_cases atStart c with hkept | ⟨hne, himages, hc⟩
  · simp [hkept, BeginsWithDigit]
  · obtain ⟨first, others, hfirst⟩ := List.exists_cons_of_ne_nil hne
    have himage : IsImage first := himages first (by simp [hfirst])
    simp only [hfirst, BeginsWithDigit, List.cons_append, List.head?_cons, Option.some.injEq,
      exists_eq_left', isDigit_iff]
    unfold IsImage IsSmall at *
    omega

theorem forall_pascalFrom_isPlain (atStart : Bool) (text : List Char) :
    (∀ d ∈ pascalFrom atStart text, IsPlain d) ↔
      ∀ c ∈ text.filter fun c => !isWordSeparator c, IsPlain c := by
  induction text generalizing atStart with
  | nil => simp [pascalFrom]
  | cons c rest ih =>
    cases hc : isWordSeparator c with
    | true => simpa [pascalFrom_of_separator hc, hc] using ih true
    | false =>
      rw [pascalFrom_of_not_separator hc, List.forall_mem_append, forall_recase_isPlain, ih false]
      simp [hc]

theorem beginsWithDigit_pascalFrom (atStart : Bool) (text : List Char) :
    BeginsWithDigit (pascalFrom atStart text) ↔
      BeginsWithDigit (text.filter fun c => !isWordSeparator c) := by
  induction text generalizing atStart with
  | nil => rfl
  | cons c rest ih =>
    cases hc : isWordSeparator c with
    | true => simpa [pascalFrom_of_separator hc, hc] using ih true
    | false =>
      rw [pascalFrom_of_not_separator hc, beginsWithDigit_recase_append]
      simp [hc, BeginsWithDigit]

theorem pascalFrom_eq_nil {atStart : Bool} {text : List Char} :
    pascalFrom atStart text = [] ↔ (text.filter fun c => !isWordSeparator c) = [] := by
  induction text generalizing atStart with
  | nil => simp [pascalFrom]
  | cons c rest ih =>
    cases hc : isWordSeparator c with
    | true => simpa [pascalFrom_of_separator hc, hc] using ih
    | false =>
      have hne : recase atStart c ≠ [] := by
        rcases recase_cases atStart c with hkept | ⟨hne, -, -⟩
        · simp [hkept]
        · exact hne
      simp [pascalFrom_of_not_separator hc, hc, hne]

/-- Whether a text has a word, that is a character that separates none. -/
def HasWord (text : String) : Prop :=
  ∃ c ∈ text.toList, isWordSeparator c = false

theorem pascalCase_eq_empty {text : String} : pascalCase text = "" ↔ ¬HasWord text := by
  simp [pascalCase, ← String.toList_inj, pascalFrom_eq_nil, HasWord]

theorem isUsable_pascalCase_iff {text : String} (h : HasWord text) :
    IsUsable (pascalCase text) ↔ NamesUsably text := by
  have hbegins := beginsWithDigit_pascalFrom true text.toList
  have hplain := forall_pascalFrom_isPlain true text.toList
  have htext : (pascalCase text).toList = pascalFrom true text.toList := by simp [pascalCase]
  constructor
  · rintro ⟨-, hb, hp⟩
    rw [htext] at hb hp
    exact ⟨mt hbegins.2 hb, hplain.1 hp⟩
  · rintro ⟨hb, hp⟩
    refine ⟨fun hempty => pascalCase_eq_empty.1 hempty h, ?_, ?_⟩ <;> rw [htext]
    · exact mt hbegins.1 hb
    · exact hplain.2 hp

-- ---------------------------------------------------------------------------
-- Names made from other names
-- ---------------------------------------------------------------------------

variable {name suffix : String}

theorem isUsable_append_iff (hname : name ≠ "") (hsuffix : ∀ c ∈ suffix.toList, IsPlain c) :
    IsUsable (name ++ suffix) ↔ IsUsable name := by
  obtain ⟨first, rest, hfirst⟩ := List.exists_cons_of_ne_nil (by simpa using hname : name.toList ≠ [])
  have hbegins : BeginsWithDigit (name ++ suffix).toList ↔ BeginsWithDigit name.toList := by
    simp [BeginsWithDigit, hfirst]
  have hplain : (∀ c ∈ (name ++ suffix).toList, IsPlain c) ↔ ∀ c ∈ name.toList, IsPlain c := by
    rw [String.toList_append, List.forall_mem_append]
    exact and_iff_left hsuffix
  constructor
  · rintro ⟨-, hb, hp⟩
    exact ⟨hname, mt hbegins.2 hb, hplain.1 hp⟩
  · rintro ⟨-, hb, hp⟩
    exact ⟨by simp [hname], mt hbegins.1 hb, hplain.2 hp⟩

/-- The mark of flat names is a letter, so a digit may follow it. -/
theorem isUsable_flatName_iff : IsUsable (flatName name) ↔ ∀ c ∈ name.toList, IsPlain c := by
  have hmark : ∀ c ∈ "CM_".toList, IsPlain c := by decide +kernel
  constructor
  · intro h c hc
    exact h.plain c (by simp [flatName, hc])
  · intro h
    refine ⟨by simp [flatName], by simp [BeginsWithDigit, flatName, isDigit_iff], ?_⟩
    rw [flatName, String.toList_append, List.forall_mem_append]
    exact ⟨hmark, h⟩

-- ---------------------------------------------------------------------------
-- References
-- ---------------------------------------------------------------------------

def namingText? : AttributeKind → Option String
  | .relation _ (some target) => if isUserTarget target then none else some (localPart target)
  | .component uid _ => some (localPart uid)
  | _ => none

structure NamedFor (kind : AttributeKind) (reference : Reference) : Prop where
  flat : reference.flat = flatName reference.nested
  nested : ∃ name suffix : String, reference.nested = name ++ suffix ∧
    (∀ c ∈ suffix.toList, IsPlain c) ∧
      match namingText? kind with
      | some text => name = pascalCase text
      | none => IsUsable name

theorem namedFor_direct {kind : AttributeKind} {path : String}
    (h : match namingText? kind with
      | some text => name = pascalCase text
      | none => IsUsable name) : NamedFor kind (.direct name path) :=
  ⟨rfl, name, "", by simp [Reference.direct], by simp, h⟩

theorem namedFor_aliased {kind : AttributeKind} {path : String}
    (hsuffix : ∀ c ∈ suffix.toList, IsPlain c)
    (h : match namingText? kind with
      | some text => name = pascalCase text
      | none => IsUsable name) : NamedFor kind (.aliased name (name ++ suffix) path) :=
  ⟨rfl, name, suffix, rfl, hsuffix, h⟩

theorem namedFor_of_reference? {scope : Scope} {kind : AttributeKind} {reference : Reference}
    (h : scope.reference? kind = some reference) : NamedFor kind reference := by
  unfold Scope.reference? at h
  split at h
  · rename_i cardinality target
    have hname : match namingText? (.relation cardinality (some target)) with
        | some text => targetName target = pascalCase text
        | none => IsUsable (targetName target) := by
      by_cases huser : isUserTarget target = true
      · simp only [namingText?, targetName, huser, if_true]
        decide +kernel
      · simp [namingText?, targetName, typeName, huser]
    obtain rfl := Option.some.inj h
    unfold Scope.relation
    cases scope.kind with
    | entity => exact namedFor_direct hname
    | component => exact namedFor_aliased (by decide +kernel) hname
  · obtain rfl := Option.some.inj h
    unfold Scope.component
    dsimp only
    split
    · exact namedFor_aliased (by decide +kernel) rfl
    · exact namedFor_direct rfl
  · obtain rfl := Option.some.inj h
    have hname : IsUsable mediaName := by decide +kernel
    exact namedFor_direct hname
  · cases h

theorem NamedFor.isUsable {kind : AttributeKind} {reference : Reference} (h : NamedFor kind reference)
    (hfixed : namingText? kind = none) : IsUsable reference.nested ∧ IsUsable reference.flat := by
  obtain ⟨name, suffix, hnested, hsuffix, hname⟩ := h.nested
  simp only [hfixed] at hname
  have husable : IsUsable reference.nested := by
    rw [hnested]
    exact (isUsable_append_iff hname.nonempty hsuffix).2 hname
  rw [h.flat]
  exact ⟨husable, isUsable_flatName_iff.2 husable.plain⟩

theorem NamedFor.isUsable_iff {kind : AttributeKind} {reference : Reference} {text : String}
    (h : NamedFor kind reference) (htext : namingText? kind = some text) (hword : HasWord text) :
    (IsUsable reference.nested ↔ NamesUsably text) ∧
      (IsUsable reference.flat ↔ ∀ c ∈ wordChars text, IsPlain c) := by
  obtain ⟨name, suffix, hnested, hsuffix, hname⟩ := h.nested
  simp only [htext] at hname
  subst hname
  have hne : pascalCase text ≠ "" := fun hempty => pascalCase_eq_empty.1 hempty hword
  rw [h.flat, isUsable_flatName_iff, hnested]
  refine ⟨(isUsable_append_iff hne hsuffix).trans (isUsable_pascalCase_iff hword), ?_⟩
  rw [String.toList_append, List.forall_mem_append, and_iff_left hsuffix, pascalCase,
    String.toList_ofList]
  exact forall_pascalFrom_isPlain true text.toList

-- ---------------------------------------------------------------------------
-- Units
-- ---------------------------------------------------------------------------

namespace GeneratedUnit

/-- Whether a source is made into a unit that is named by a text: the singular name that an entity
gives itself, or the stem of a component's file. -/
inductive IsMadeFrom (source text : String) (unit : GeneratedUnit) : Prop
  | entity {document : Document} (made : ofEntity source = .ok unit)
    (document_eq : Document.ofText source = .ok document)
    (named : document.singularName? = some text)
  | component (made : ofComponent source text = .ok unit)

theorem IsMadeFrom.exists_document {source text : String} {unit : GeneratedUnit}
    (h : IsMadeFrom source text unit) :
    ∃ document, Document.ofText source = .ok document ∧
      unit = ofAttributes unit.kind (pascalCase text) document.attributes := by
  cases h with
  | entity made document_eq named =>
    obtain ⟨document, text', hdocument, htext', rfl⟩ := ofEntity_eq_ok.1 made
    obtain rfl := Except.ok.inj (document_eq.symm.trans hdocument)
    obtain rfl := Option.some.inj (named.symm.trans htext')
    exact ⟨_, hdocument, by rw [ofAttributes_kind]⟩
  | component made =>
    obtain ⟨document, hdocument, rfl⟩ := ofComponent_eq_ok.1 made
    exact ⟨document, hdocument, by rw [ofAttributes_kind]⟩

/-- The names of types in the file of a unit, where they come from a text with a word in it: that of the
declaration and those by which its attributes refer to types are usable exactly if the text's words make
a name. The fixed names are usable. -/
theorem typeNames_of_madeFrom {source text : String} {unit : GeneratedUnit}
    (h : IsMadeFrom source text unit) :
    (HasWord text → unit.name ≠ "" ∧ (IsUsable unit.name ↔ NamesUsably text)) ∧
      ∃ document, Document.ofText source = .ok document ∧
        ∀ key a reference, (key, a) ∈ document.attributes →
          (unitScope unit.kind unit.name document.attributes).reference? a.kind = some reference →
            unit.Shows key a reference ∧
            (namingText? a.kind = none → IsUsable reference.nested ∧ IsUsable reference.flat) ∧
            ∀ part, namingText? a.kind = some part → HasWord part →
              (IsUsable reference.nested ↔ NamesUsably part) ∧
              (IsUsable reference.flat ↔ ∀ c ∈ wordChars part, IsPlain c) := by
  obtain ⟨document, hdocument, hunit⟩ := h.exists_document
  have hname : unit.name = pascalCase text := by rw [hunit, ofAttributes_name]
  refine ⟨fun hword => ?_, document, hdocument, fun key a reference hmem href => ?_⟩
  · rw [hname]
    exact ⟨fun hempty => pascalCase_eq_empty.1 hempty hword, isUsable_pascalCase_iff hword⟩
  · have hnamed := namedFor_of_reference? href
    refine ⟨?_, hnamed.isUsable, fun part hpart hword => hnamed.isUsable_iff hpart hword⟩
    rw [hunit, ofAttributes_kind, ofAttributes_name] at href
    rw [hunit]
    exact shows_of_reference? hmem href

def numberedName : String :=
  "\x7b\"info\":\x7b\"singularName\":\"2nd-tag\"\x7d,\"attributes\":\x7b\x7d\x7d"

/-- An entity whose name begins with a number is accepted, and its declaration has a name that cannot be
used. -/
theorem ofEntity_numberedName :
    ∃ unit, ofEntity numberedName = .ok unit ∧ unit.name = "2ndTag" ∧ ¬IsUsable unit.name := by
  have hdocument : Document.ofText numberedName =
      .ok ⟨some ⟨some "2nd-tag", none, none⟩, []⟩ := by
    decide +kernel
  have hname : pascalCase "2nd-tag" = "2ndTag" := by decide +kernel
  refine ⟨_, ofEntity_eq_ok.2 ⟨_, "2nd-tag", hdocument, by decide +kernel, rfl⟩, ?_⟩
  rw [ofAttributes_name, hname]
  exact ⟨rfl, by decide +kernel⟩

def podiumSource : String :=
  "\x7b\"attributes\":\x7b\"first\":\x7b\"type\":\"component\",\"component\":\"rank.1st\"\x7d\x7d\x7d"

theorem typeNames_of_podiumSource :
    ∃ unit, ofComponent podiumSource "race-podium" = .ok unit ∧ IsUsable unit.name ∧
      ∃ reference, unit.Shows "first" ⟨.component "rank.1st" false, none⟩ reference ∧
        ¬IsUsable reference.nested ∧ IsUsable reference.flat := by
  have hdocument : Document.ofText podiumSource =
      .ok ⟨none, [("first", ⟨.component "rank.1st" false, none⟩)]⟩ := by
    decide +kernel
  have hunit : ofComponent podiumSource "race-podium" = .ok _ :=
    ofComponent_eq_ok.2 ⟨_, hdocument, rfl⟩
  have hword : HasWord "race-podium" := ⟨'r', by decide +kernel, by decide +kernel⟩
  have hpart : HasWord "1st" := ⟨'s', by decide +kernel, by decide +kernel⟩
  obtain ⟨hname, document, hsame, hreferences⟩ :=
    typeNames_of_madeFrom (.component hunit)
  obtain rfl := Except.ok.inj (hdocument.symm.trans hsame)
  obtain ⟨hshows, -, hparts⟩ := hreferences "first" _ _ (List.mem_singleton.2 rfl) rfl
  obtain ⟨hnested, hflat⟩ := hparts "1st" (by decide +kernel) hpart
  have hfirst : ¬NamesUsably "1st" := fun h => h.begins (by decide +kernel)
  refine ⟨_, hunit, (hname hword).2.2 ⟨by decide +kernel, by decide +kernel⟩, _, hshows, ?_, ?_⟩
  · exact fun h => hfirst (hnested.1 h)
  · exact hflat.2 (by decide +kernel)

end GeneratedUnit

end ContentTypes.Declaration
