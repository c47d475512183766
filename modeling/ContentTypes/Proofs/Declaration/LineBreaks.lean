import ContentTypes.Proofs.Declaration.Rendered
import ContentTypes.Proofs.Declaration.Usable

/-!
# Line ends in the texts of a schema

A line end in a text of a schema is neither escaped in a literal nor taken out of a name, so it is one in
the lines that are made from the text. Which lines of a unit are broken is seen from the texts:
`unbroken_of_accepted`.
-/

namespace ContentTypes.Declaration

open Schema (Attribute AttributeKind Cardinality Document withoutPasswords)
open Text (Unbroken unbroken_append lineEnds IsImage IsSmall)

-- ---------------------------------------------------------------------------
-- Names
-- ---------------------------------------------------------------------------

theorem unbroken_of_not {P : Char → Prop} (hfeed : ¬P '\n') (hreturn : ¬P '\r') {c : Char} (h : P c) :
    Unbroken [c] :=
  List.forall_mem_singleton.2 ⟨fun heq => hfeed (heq ▸ h), fun heq => hreturn (heq ▸ h)⟩

theorem IsPlain.unbroken {c : Char} (h : IsPlain c) : Unbroken [c] :=
  unbroken_of_not (P := IsPlain) (by decide) (by decide) h

theorem unbroken_recase (atStart : Bool) (c : Char) : Unbroken (recase atStart c) ↔ Unbroken [c] := by
  rcases recase_cases atStart c with hkept | ⟨-, himages, hc⟩
  · rw [hkept]
  · refine iff_of_true (fun d hd => ?_) ?_
    · exact (isPlain_of_isImage (himages d hd)).unbroken d (List.mem_singleton_self d)
    · exact (hc.elim isPlain_of_isImage fun hsmall => isPlain_of_letter (.inr hsmall)).unbroken

theorem unbroken_of_isWordSeparator {c : Char} (h : isWordSeparator c = true) : Unbroken [c] :=
  unbroken_of_not (P := fun c => isWordSeparator c = true) (by decide) (by decide) h

theorem unbroken_pascalFrom (atStart : Bool) (text : List Char) :
    Unbroken (pascalFrom atStart text) ↔ Unbroken text := by
  induction text generalizing atStart with
  | nil => rfl
  | cons c rest ih =>
    rw [← List.singleton_append (x := c), unbroken_append]
    cases hc : isWordSeparator c with
    | true =>
      rw [List.singleton_append, pascalFrom_of_separator hc, ih true,
        and_iff_right (unbroken_of_isWordSeparator hc)]
    | false =>
      rw [List.singleton_append, pascalFrom_of_not_separator hc, unbroken_append, unbroken_recase,
        ih false]

theorem unbroken_pascalCase (text : String) :
    Unbroken (pascalCase text).toList ↔ Unbroken text.toList := by
  rw [pascalCase, String.toList_ofList, unbroken_pascalFrom]

theorem unbroken_propertyKey (name : String) (optional : Bool) :
    Unbroken (propertyKey name optional).toList ↔ Unbroken name.toList := by
  have hmark : Unbroken (optionalMark optional).toList := by
    cases optional <;> decide
  rw [propertyKey_eq, String.toList_append, unbroken_append, and_iff_left hmark, propertyKey]
  by_cases hname : isIdentifier name = true
  · simp [hname]
  · simpa [hname] using Text.SingleQuoted.unbroken_encode name

theorem unbroken_optionsUnion (options : List String) :
    Unbroken (optionsUnion options).toList ↔ ∀ option ∈ options, Unbroken option.toList := by
  cases options with
  | nil => exact iff_of_true (by decide) (List.forall_mem_nil _)
  | cons option options =>
    have hbar : Unbroken " | ".toList := by decide
    rw [optionsUnion, String.toList_intercalate, Text.unbroken_intercalate hbar, List.map_map,
      List.forall_mem_map]
    · simp only [Function.comp_apply, Text.SingleQuoted.unbroken_encode]
    · exact nofun

-- ---------------------------------------------------------------------------
-- References
-- ---------------------------------------------------------------------------

/-- The texts that the type of an attribute is made from: the options of an enumeration, or the text that
names the type it refers to. -/
def typeTexts : AttributeKind → List String
  | .enumeration options => options
  | kind => (namingText? kind).toList

/-- Whether there are line ends in what a reference brings into a file exactly if `p` does not hold. -/
structure Reference.UnbrokenIff (reference : Reference) (p : Prop) : Prop where
  nested : Unbroken reference.nested.toList ↔ p
  flat : Unbroken reference.flat.toList ↔ p
  path : Unbroken reference.need.path.toList ↔ p
  symbols : ∀ symbol ∈ reference.need.symbols, Unbroken symbol.text.toList ↔ p

theorem unbroken_flatName (name : String) : Unbroken (flatName name).toList ↔ Unbroken name.toList := by
  have hmark : Unbroken "CM_".toList := by decide
  rw [flatName, String.toList_append, unbroken_append, and_iff_right hmark]

section

variable {dir suffix : String}

theorem unbrokenIff_direct (hdir : Unbroken dir.toList) (name : String) :
    (Reference.direct name (dir ++ name)).UnbrokenIff (Unbroken name.toList) where
  nested := Iff.rfl
  flat := unbroken_flatName name
  path := by
    rw [Reference.direct, String.toList_append, unbroken_append, and_iff_right hdir]
  symbols := by
    simp [Reference.direct, ImportSymbol.text, unbroken_flatName]

theorem unbrokenIff_aliased (hdir : Unbroken dir.toList) (hsuffix : Unbroken suffix.toList)
    (name : String) :
    (Reference.aliased name (name ++ suffix) (dir ++ name)).UnbrokenIff (Unbroken name.toList) := by
  have has : Unbroken " as ".toList := by decide
  have hother : Unbroken (name ++ suffix).toList ↔ Unbroken name.toList := by
    rw [String.toList_append, unbroken_append, and_iff_left hsuffix]
  refine ⟨hother, (unbroken_flatName _).trans hother, ?_, ?_⟩
  · rw [Reference.aliased, String.toList_append, unbroken_append, and_iff_right hdir]
  · intro symbol hsymbol
    simp only [Reference.aliased, List.mem_cons, List.not_mem_nil, or_false] at hsymbol
    rcases hsymbol with rfl | rfl
    all_goals
      rw [ImportSymbol.text, String.toList_append, String.toList_append, unbroken_append,
        unbroken_append, and_iff_left has]
    · rw [hother, and_self_iff]
    · rw [unbroken_flatName, unbroken_flatName, hother, and_self_iff]

end

theorem unbroken_entityDir (kind : ContentKind) : Unbroken kind.entityDir.toList := by
  cases kind <;> decide

theorem unbroken_componentDir (kind : ContentKind) : Unbroken kind.componentDir.toList := by
  cases kind <;> decide

theorem Reference.UnbrokenIff.congr {reference : Reference} {p q : Prop} (h : reference.UnbrokenIff p)
    (hpq : p ↔ q) : reference.UnbrokenIff q where
  nested := h.nested.trans hpq
  flat := h.flat.trans hpq
  path := h.path.trans hpq
  symbols symbol hsymbol := (h.symbols symbol hsymbol).trans hpq

theorem unbroken_targetName (cardinality : Cardinality) (target : String) :
    Unbroken (targetName target).toList ↔
      ∀ text ∈ typeTexts (.relation cardinality (some target)), Unbroken text.toList := by
  by_cases huser : isUserTarget target = true
  · have hname : Unbroken userName.toList := by decide
    simpa [targetName, typeTexts, namingText?, huser] using hname
  · simp [targetName, typeTexts, namingText?, huser, typeName, unbroken_pascalCase]

theorem unbrokenIff_of_reference? {scope : Scope} {kind : AttributeKind} {reference : Reference}
    (h : scope.reference? kind = some reference) :
    reference.UnbrokenIff (∀ text ∈ typeTexts kind, Unbroken text.toList) := by
  have hentity : Unbroken "Entity".toList := by decide
  have hcomponent : Unbroken "Component".toList := by decide
  unfold Scope.reference? at h
  split at h
  · rename_i cardinality target
    obtain rfl := Option.some.inj h
    refine Reference.UnbrokenIff.congr ?_ (unbroken_targetName cardinality target)
    unfold Scope.relation
    cases scope.kind with
    | entity => exact unbrokenIff_direct (unbroken_entityDir _) _
    | component => exact unbrokenIff_aliased (unbroken_entityDir _) hentity _
  · rename_i uid repeatable
    obtain rfl := Option.some.inj h
    have hname : Unbroken (typeName uid).toList ↔
        ∀ text ∈ typeTexts (.component uid repeatable), Unbroken text.toList := by
      simp [typeTexts, namingText?, typeName, unbroken_pascalCase]
    refine Reference.UnbrokenIff.congr ?_ hname
    unfold Scope.component
    dsimp only
    split
    · exact unbrokenIff_aliased (unbroken_componentDir _) hcomponent _
    · exact unbrokenIff_direct (unbroken_componentDir _) _
  · obtain rfl := Option.some.inj h
    have hname : Unbroken mediaName.toList := by decide
    refine (unbrokenIff_direct (unbroken_entityDir _) _).congr ?_
    simpa [typeTexts, namingText?] using hname
  · cases h

-- ---------------------------------------------------------------------------
-- Lines
-- ---------------------------------------------------------------------------

def lineTexts (member : String × Attribute) : List String :=
  member.1 :: typeTexts member.2.kind

def IsUnbroken (member : String × Attribute) : Prop :=
  ∀ text ∈ lineTexts member, Unbroken text.toList

instance : DecidablePred IsUnbroken := fun member =>
  inferInstanceAs (Decidable (∀ text ∈ lineTexts member, Unbroken text.toList))

variable {scope : Scope}

section

variable {reference : Reference} {p : Prop}

theorem unbroken_arraySuffix (many : Bool) : Unbroken (TypePair.arraySuffix many).toList := by
  cases many <;> decide

theorem Reference.UnbrokenIff.embedded (h : reference.UnbrokenIff p) (many : Bool) :
    (Unbroken (TypePair.embedded reference many).nested.toList ↔ p) ∧
      (Unbroken (TypePair.embedded reference many).flat.toList ↔ p) := by
  simp only [TypePair.embedded, String.toList_append, unbroken_append,
    and_iff_left (unbroken_arraySuffix many), h.nested, h.flat, and_self]

theorem Reference.UnbrokenIff.enveloped (h : reference.UnbrokenIff p) (many : Bool) :
    (Unbroken (TypePair.enveloped reference many).nested.toList ↔ p) ∧
      (Unbroken (TypePair.enveloped reference many).flat.toList ↔ p) := by
  have hopening : Unbroken "\x7b data: ".toList := by decide
  have hclosing : Unbroken " \x7d".toList := by decide
  simp only [TypePair.enveloped, String.toList_append, unbroken_append, and_iff_right hopening,
    and_iff_left hclosing, and_iff_left (unbroken_arraySuffix many), h.nested, h.flat, and_self]

end

theorem unbroken_types {kind : AttributeKind} {types : TypePair}
    (h : TypePair.ofKind? scope kind = some types) :
    (Unbroken types.nested.toList ↔ ∀ text ∈ typeTexts kind, Unbroken text.toList) ∧
      (Unbroken types.flat.toList ↔ ∀ text ∈ typeTexts kind, Unbroken text.toList) := by
  cases kind with
  | relation cardinality target =>
    cases target with
    | none =>
      obtain rfl := Option.some.inj h
      have hany : Unbroken "any".toList := by decide
      simpa [TypePair.same, typeTexts, namingText?] using hany
    | some target =>
      obtain rfl := Option.some.inj h
      exact (unbrokenIff_of_reference? rfl).enveloped _
  | media multiple =>
    obtain rfl := Option.some.inj h
    exact (unbrokenIff_of_reference? rfl).enveloped _
  | component uid repeatable =>
    obtain rfl := Option.some.inj h
    exact (unbrokenIff_of_reference? rfl).embedded _
  | enumeration options =>
    obtain rfl := Option.some.inj h
    exact ⟨unbroken_optionsUnion options, unbroken_optionsUnion options⟩
  | password => cases h
  | temporal | text | number | boolean | json | unrecognized =>
    obtain rfl := Option.some.inj h
    exact ⟨iff_of_true (by decide) (List.forall_mem_nil _),
      iff_of_true (by decide) (List.forall_mem_nil _)⟩

theorem unbroken_property {member : String × Attribute} {property : Property}
    (h : Property.ofAttribute? scope member.1 member.2 = some property) :
    (Unbroken property.nestedLine.toList ↔ IsUnbroken member) ∧
      (Unbroken property.flatLine.toList ↔ IsUnbroken member) := by
  obtain ⟨types, htypes, rfl⟩ := Option.map_eq_some_iff.1 h
  obtain ⟨hnested, hflat⟩ := unbroken_types htypes
  have hline (type : String) :
      Unbroken (propertyKey member.1 member.2.isOptional ++ ": " ++ type ++ ";").toList ↔
        Unbroken member.1.toList ∧ Unbroken type.toList := by
    have hcolon : Unbroken ": ".toList := by decide
    have hend : Unbroken ";".toList := by decide
    simp only [String.toList_append, unbroken_append, unbroken_propertyKey, and_iff_left hcolon,
      and_iff_left hend]
  have hmember : IsUnbroken member ↔ Unbroken member.1.toList ∧
      ∀ text ∈ typeTexts member.2.kind, Unbroken text.toList := List.forall_mem_cons
  rw [Property.nestedLine, Property.flatLine, hline, hline, hnested, hflat, hmember]
  exact ⟨Iff.rfl, Iff.rfl⟩

-- ---------------------------------------------------------------------------
-- Imports
-- ---------------------------------------------------------------------------

theorem unbroken_statement (need : ImportNeed) : Unbroken need.statement.toList ↔
    Unbroken need.path.toList ∧ ∀ symbol ∈ need.symbols, Unbroken symbol.text.toList := by
  have hcomma : Unbroken ", ".toList := by decide
  have hopening : Unbroken "import \x7b ".toList := by decide
  have hfrom : Unbroken " \x7d from '".toList := by decide
  have hend : Unbroken "';".toList := by decide
  simp only [ImportNeed.statement, String.toList_append, unbroken_append, String.toList_intercalate,
    Text.unbroken_intercalate hcomma, List.map_map, List.forall_mem_map, Function.comp_apply,
    and_iff_right hopening, and_iff_left hfrom, and_iff_left hend]
  exact and_comm

def RefersTo (scope : Scope) (path : String) (kind : AttributeKind) : Prop :=
  ∃ reference, scope.reference? kind = some reference ∧ reference.need.path = path

namespace GeneratedUnit

variable {kind : ContentKind} {name : String} {attributes : List (String × Attribute)}

theorem exists_member_of_foreign {reference : Reference}
    (h : reference ∈ foreignReferences kind name attributes) :
    ∃ member ∈ attributes,
      (unitScope kind name attributes).reference? member.2.kind = some reference := by
  simpa [references, List.mem_filterMap] using (mem_foreignReferences.1 h).1

theorem unbroken_import {need : ImportNeed}
    (hneed : need ∈ (ofAttributes kind name attributes).imports) :
    Unbroken need.statement.toList ↔ ∀ member ∈ attributes,
      RefersTo (unitScope kind name attributes) need.path member.2.kind →
        ∀ text ∈ typeTexts member.2.kind, Unbroken text.toList := by
  rw [unbroken_statement]
  constructor
  · rintro ⟨hpath, -⟩ member - ⟨reference, href, hsame⟩
    rw [← hsame] at hpath
    exact (unbrokenIff_of_reference? href).path.1 hpath
  · -- The import may be that of several references, of which each gives some of the symbols.
    intro h
    refine ⟨?_, fun symbol hsymbol => ?_⟩
    · obtain ⟨reference, hforeign, hpath⟩ := mem_paths_imports.1 (List.mem_map_of_mem hneed)
      obtain ⟨member, hmember, href⟩ := exists_member_of_foreign hforeign
      rw [← hpath]
      exact (unbrokenIff_of_reference? href).path.2 (h member hmember ⟨reference, href, hpath⟩)
    · obtain ⟨reference, hforeign, hpath, hmem⟩ :=
        mem_bindings_imports.1 (ImportRegistry.mem_bindings.2 ⟨need, hneed, rfl, hsymbol⟩)
      obtain ⟨member, hmember, href⟩ := exists_member_of_foreign hforeign
      exact ((unbrokenIff_of_reference? href).symbols symbol hmem).2
        (h member hmember ⟨reference, href, hpath⟩)

-- ---------------------------------------------------------------------------
-- Units
-- ---------------------------------------------------------------------------

def IsUnbrokenWith (member : String × Attribute) (line : String) : Prop :=
  Unbroken line.toList ↔ IsUnbroken member

theorem forall₂_isUnbrokenWith : List.Forall₂ IsUnbrokenWith (withoutPasswords attributes)
      (ofAttributes kind name attributes).nested ∧
    List.Forall₂ IsUnbrokenWith (withoutPasswords attributes)
      (ofAttributes kind name attributes).flat := by
  have hproperties := forall₂_properties (unitScope kind name attributes) attributes
  rw [ofAttributes_eq, List.forall₂_map_right_iff, List.forall₂_map_right_iff]
  exact ⟨hproperties.imp fun _ _ h => (unbroken_property h).1,
    hproperties.imp fun _ _ h => (unbroken_property h).2⟩

theorem forall_unbroken_iff {members : List (String × Attribute)} {lines : List String}
    (h : List.Forall₂ IsUnbrokenWith members lines) :
    (∀ line ∈ lines, Unbroken line.toList) ↔ ∀ member ∈ members, IsUnbroken member := by
  induction h with
  | nil => simp
  | @cons member line _ _ hline _ ih =>
    have hline : Unbroken line.toList ↔ IsUnbroken member := hline
    rw [List.forall_mem_cons, List.forall_mem_cons, hline, ih]

theorem mem_withoutPasswords_of_refersTo {member : String × Attribute} {path : String}
    (hmember : member ∈ attributes) (h : RefersTo scope path member.2.kind) :
    member ∈ withoutPasswords attributes := by
  obtain ⟨reference, href, -⟩ := h
  refine List.mem_filter.2 ⟨hmember, decide_eq_true fun hpassword => ?_⟩
  rw [hpassword] at href
  cases href

theorem forall_unbroken_lines_iff :
    (∀ line ∈ (ofAttributes kind name attributes).lines, Unbroken line.toList) ↔
      Unbroken name.toList ∧ ∀ member ∈ withoutPasswords attributes, IsUnbroken member := by
  have hfixed (c : Char) (hc : ' ' ≤ c) : c ≠ '\n' ∧ c ≠ '\r' :=
    unbroken_of_not (P := (' ' ≤ ·)) (by decide) (by decide) hc c (List.mem_singleton_self c)
  obtain ⟨hnested, hflat⟩ := @forall₂_isUnbrokenWith kind name attributes
  refine (forall_lines_iff hfixed).trans ?_
  rw [ofAttributes_name]
  constructor
  · rintro ⟨hname, -, hlines, -⟩
    exact ⟨hname, (forall_unbroken_iff hnested).1 hlines⟩
  · rintro ⟨hname, hmembers⟩
    refine ⟨hname, fun need hneed => (unbroken_import hneed).2 fun member hmember href => ?_,
      (forall_unbroken_iff hnested).2 hmembers, (forall_unbroken_iff hflat).2 hmembers⟩
    exact (List.forall_mem_cons.1 (hmembers member (mem_withoutPasswords_of_refersTo hmember href))).2

/-- A text of the schema has its line ends in the lines that are made from it: in both lines of an
attribute those of its name and of the texts of its type, and in an import those of the texts that name
the type. The text of the unit has one line for each line of the unit exactly if there are none in the
unit's name and in the attributes that have lines. -/
theorem unbroken_of_accepted {source : String} {unit : GeneratedUnit}
    (h : ofEntity source = .ok unit ∨ ∃ stem, ofComponent source stem = .ok unit) :
    ∃ document, Document.ofText source = .ok document ∧
      List.Forall₂ IsUnbrokenWith (withoutPasswords document.attributes) unit.nested ∧
      List.Forall₂ IsUnbrokenWith (withoutPasswords document.attributes) unit.flat ∧
      (∀ need ∈ unit.imports, Unbroken need.statement.toList ↔ ∀ member ∈ document.attributes,
        RefersTo (unitScope unit.kind unit.name document.attributes) need.path member.2.kind →
          ∀ text ∈ typeTexts member.2.kind, Unbroken text.toList) ∧
      (lineEnds unit.render.toList = unit.lines.length ↔
        Unbroken unit.name.toList ∧
          ∀ member ∈ withoutPasswords document.attributes, IsUnbroken member) := by
  obtain ⟨document, hdocument, hunit⟩ := exists_of_accepted h
  generalize unit.kind = kind, unit.name = name at hunit
  subst hunit
  refine ⟨document, hdocument, forall₂_isUnbrokenWith.1, forall₂_isUnbrokenWith.2,
    fun need hneed => unbroken_import hneed, ?_⟩
  rw [render, Text.lineEnds_joinLines_eq_length]
  exact forall_unbroken_lines_iff

def brokenSource : String :=
  "\x7b\"attributes\":\x7b\"a\\nb\":\x7b\"type\":\"string\"\x7d,"
    ++ "\"c\":\x7b\"type\":\"string\"\x7d\x7d\x7d"

/-- Of two attributes the one with a line end in its name has its property on two lines of the text. -/
theorem unbroken_of_brokenSource : ∃ unit broken line, ofComponent brokenSource "row" = .ok unit ∧
    unit.nested = [broken, line] ∧ ¬Unbroken broken.toList ∧ Unbroken line.toList ∧
    lineEnds unit.render.toList ≠ unit.lines.length := by
  have hdocument : Document.ofText brokenSource =
      .ok ⟨none, [("a\nb", ⟨.text .string, none⟩), ("c", ⟨.text .string, none⟩)]⟩ := by
    decide +kernel
  have hunit := ofComponent_eq_of_ofText hdocument "row"
  obtain ⟨document, hsame, hnested, -, -, hcount⟩ := unbroken_of_accepted (.inr ⟨"row", hunit⟩)
  obtain rfl := Except.ok.inj (hdocument.symm.trans hsame)
  obtain ⟨broken, lines, hbroken, hlines, heq⟩ := List.forall₂_cons_left_iff.1 hnested
  obtain ⟨line, rest, hline, hrest, rfl⟩ := List.forall₂_cons_left_iff.1 hlines
  obtain rfl := List.forall₂_nil_left_iff.1 hrest
  have hfirst : ¬IsUnbroken ("a\nb", ⟨.text .string, none⟩) := by decide
  refine ⟨_, broken, line, hunit, heq, mt hbroken.1 hfirst, hline.2 (by decide), fun h => ?_⟩
  exact hfirst ((hcount.1 h).2 _ (by decide +kernel))

end GeneratedUnit

end ContentTypes.Declaration
