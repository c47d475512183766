import ContentTypes.Proofs.Schema.DocumentShape

/-!
# The order of attributes

However often names repeat, the attributes of a document stand where their names come first and are
read from the values that come last. The first name whose last value is no attribute gives the error:
`Document.attributes_of_members`.
-/

namespace ContentTypes.Schema

open Json (Value Tree StringPart ContentError Record ReadsTree TreeText)

variable {limit room : Nat} {tree : Tree} {fields : List (String × Tree)}
  {members : List (List StringPart × Tree)} {given : List (String × Value)}

-- ---------------------------------------------------------------------------
-- Accepted attributes
-- ---------------------------------------------------------------------------

theorem attributes_of_ofTree? {document : Document} {attributes : Tree}
    (hdocument : Document.ofTree? limit tree = some document)
    (hfields : tree.fields? ["info", "attributes"] = some fields)
    (hunder : Json.under "attributes" fields = [attributes]) :
    attributesOf? (Json.maximalDepth - 1) attributes = some document.attributes := by
  obtain ⟨draft, hdraft, rfl⟩ := Option.map_eq_some_iff.1 hdocument
  obtain ⟨-, fields', hfields', hrun, hcomplete⟩ := Record.ofTree?_eq_some.1 hdraft
  cases hfields.symm.trans hfields'
  -- The attributes are those of the tree once it has been read, and `info` leaves them.
  let P (draft : DocumentDraft) : Prop :=
    ∃ found, attributesOf? (Json.maximalDepth - 1) attributes = some found ∧
      draft.attributes = some found
  have hstored : P draft := by
    refine (stores_documentRecord limit _).holds_of_run? (List.mem_cons_of_mem _ List.mem_cons_self)
      (fun other hother hne draft draft' tree hstore => ?_) (fun draft draft' hstore => ?_) hunder hrun
    · rcases List.mem_cons.1 hother with rfl | hother
      · obtain ⟨info, -, rfl⟩ := Option.map_eq_some_iff.1 hstore
        exact id
      · exact absurd (congrArg (·.name) (List.mem_singleton.1 hother)) hne
    · obtain ⟨found, hfound, rfl⟩ := Option.map_eq_some_iff.1 hstore
      exact ⟨found, hfound, rfl⟩
  obtain ⟨found, hfound, hattributes⟩ := hstored
  rw [hfound, hattributes, Option.getD_some]

theorem mem_attributesOfMembers {attributes : List (String × Attribute)}
    (h : attributesOfMembers (Assoc.ofList given) = .ok attributes) {name : String} {a : Attribute} :
    (name, a) ∈ attributes ↔
      ∃ value, given.reverse.lookup name = some value ∧ Attribute.ofValue value = .ok a := by
  simp only [mem_iff_of_mapM_eq_ok h, bind_eq_ok, pure_eq_ok, Prod.exists, Prod.mk.injEq,
    ← Assoc.mem_ofList]
  constructor
  · rintro ⟨_, value, hm, found, hvalue, rfl, rfl⟩
    exact ⟨value, hm, hvalue⟩
  · rintro ⟨value, hm, hvalue⟩
    exact ⟨name, value, hm, a, hvalue, rfl, rfl⟩

theorem attributesOfMembers_eq_error {before after : List String} {name : String} {value : Value}
    {error : ContentError}
    (hnames : (given.map Prod.fst).eraseDups = before ++ name :: after)
    (hbefore : ∀ other ∈ before, ∀ value, given.reverse.lookup other = some value →
      ∃ a, Attribute.ofValue value = .ok a)
    (hvalue : given.reverse.lookup name = some value)
    (herror : Attribute.ofValue value = .error error) :
    attributesOfMembers (Assoc.ofList given) = .error error := by
  rw [← Assoc.map_fst_ofList] at hnames
  obtain ⟨front, back, hgiven, rfl, hback⟩ := List.map_eq_append_iff.1 hnames
  obtain ⟨member, back, rfl, rfl, rfl⟩ := List.map_eq_cons_iff.1 hback
  have hmember : member.2 = value := by
    have hm : (member.1, member.2) ∈ Assoc.ofList given := by simp [hgiven]
    exact Option.some.inj ((Assoc.mem_ofList.1 hm).symm.trans hvalue)
  subst hmember
  rw [attributesOfMembers, hgiven]
  refine mapM_eq_error (fun other hm => ?_) ?_
  · have hother : (other.1, other.2) ∈ Assoc.ofList given := by simp [hgiven, hm]
    obtain ⟨a, ha⟩ := hbefore other.1 (List.mem_map_of_mem hm) other.2 (Assoc.mem_ofList.1 hother)
    exact ⟨(other.1, a), bind_eq_ok.2 ⟨a, ha, rfl⟩⟩
  · simp only [herror]
    rfl

theorem failsOn_readAttributes {error : ContentError}
    (hgiven : Json.decode? (Tree.value? room) members = some given)
    (herror : attributesOfMembers (Assoc.ofList given) = .error error) :
    Record.FailsOn limit (readAttributes limit (room + 1)) (.object members) error := by
  intro text rest hlimit htree
  cases htree with
  | scalar _ hscalar => cases hscalar
  | object hopen hmembers =>
    have hskip := (Json.afterBlanks_cons_iff (by decide)).1 hopen
    have hlength := Nat.lt_trans (Json.length_of_skipBlanks hskip) hlimit
    have hread : Json.readMembers (Json.readValue limit room) [] limit _ = .ok (given, rest) :=
      ((Json.readsTree_readValue limit room).readMembers hlength hlength).2
        ⟨members, given, hmembers, hgiven, rfl⟩
    refine ⟨rest, ?_⟩
    unfold readAttributes
    rw [hskip]
    simp only [hread, Json.placed_ok, ok_bind, herror]
    rfl

-- ---------------------------------------------------------------------------
-- Documents
-- ---------------------------------------------------------------------------

/-- Whether a text is JSON of a document with valid names, if any, and with one object of attributes,
of which `given` are the members. -/
def Document.Gives (source : String) (given : List (String × Value)) : Prop :=
  ∃ tree fields members, Json.IsJson source.toList tree ∧
    tree.fields? ["info", "attributes"] = some fields ∧ Json.AtMostOnce IsInfo "info" fields ∧
      Json.under "attributes" fields = [.object members] ∧
        Json.decode? (Tree.value? (Json.maximalDepth - 2)) members = some given

theorem exists_attributesField (limit room : Nat) :
    ∃ field ∈ (documentRecord limit room).fields, field.name = "attributes" ∧
      (∀ draft, field.isSet draft = draft.attributes.isSome) ∧
        ∀ draft, field.read draft = fun text =>
          readAttributes limit room text >>= fun (attributes, rest) =>
            pure ({ draft with attributes := some attributes }, rest) :=
  ⟨_, List.mem_cons_of_mem _ List.mem_cons_self, rfl, fun _ => rfl, fun _ => rfl⟩

namespace Document

variable {source : String}

theorem Gives.ofText_eq_ok (h : Gives source given) {attributes : List (String × Attribute)}
    (hattributes : attributesOfMembers (Assoc.ofList given) = .ok attributes) :
    ∃ document, ofText source = .ok document ∧ document.attributes = attributes := by
  obtain ⟨tree, fields, members, hjson, hfields, hinfo, hunder, hgiven⟩ := h
  have hfound : attributesOf? (Json.maximalDepth - 1) (.object members) = some attributes :=
    attributesOf?_eq_some.2 ⟨_, members, given, rfl, rfl, hgiven, hattributes⟩
  have hshape : IsDocument tree :=
    ⟨fields, hfields, hinfo, _, hunder, exists_attributesOf?_iff.1 ⟨attributes, hfound⟩⟩
  obtain ⟨document, hdocument⟩ := (exists_ofTree?_iff (Json.itemLimit source.toList)).2 hshape
  refine ⟨document, Document.ofText_eq_ok.2 ⟨tree, hjson, hdocument⟩, ?_⟩
  exact Option.some.inj ((attributes_of_ofTree? hdocument hfields hunder).symm.trans hfound)

theorem Gives.ofText_eq_error (h : Gives source given) {error : ContentError}
    (herror : attributesOfMembers (Assoc.ofList given) = .error error) :
    ∃ position, ofText source = .error ⟨.content error, some position⟩ := by
  obtain ⟨tree, fields, members, ⟨rest, htree, -⟩, hfields, hinfo, hunder, hgiven⟩ := h
  obtain ⟨before, after, rfl, hbefore⟩ := Json.exists_split_of_under hunder
  have hstores := stores_documentRecord (Json.itemLimit source.toList) (Json.maximalDepth - 1)
  obtain ⟨draft, hrun⟩ : ∃ draft, (documentRecord (Json.itemLimit source.toList)
      (Json.maximalDepth - 1)).run? (documentStore (Json.maximalDepth - 1)) {} before = some draft := by
    refine (hstores.exists_run?_iff (accepts_documentRecord _ (Json.maximalDepth - 2))).2 ?_
    refine List.forall_mem_cons.2 ⟨?_, List.forall_mem_singleton.2 (.inl hbefore)⟩
    exact hinfo.of_append.imp_right fun hname => ⟨rfl, hname⟩
  obtain ⟨field, hm, hname, hisSet, hread⟩ :=
    exists_attributesField (Json.itemLimit source.toList) (Json.maximalDepth - 1)
  have hset : field.isSet draft = false := by
    rw [← Bool.not_eq_true, hstores.isSet_iff_of_run? hm hrun, hname, hisSet]
    rintro (hset | hmem)
    · cases hset
    · exact Json.under_eq_nil_iff.1 hbefore hmem
  have hfails : Record.FailsOn (Json.itemLimit source.toList) (field.read draft) (.object members)
      error := hread draft ▸ (failsOn_readAttributes hgiven herror).bind _
  have hroom : Json.maximalDepth ≠ 0 := by decide
  obtain ⟨bytesLeft, hfailed⟩ := Record.Stores.read_fails
    (documentRecord (Json.itemLimit source.toList)) hstores hroom hfields hrun
    (hname ▸ hstores.find?_name hm) hset hfails htree (Nat.lt_succ_self _)
  unfold ofText Json.readText
  simp only [hfailed]
  exact ⟨_, rfl⟩

/-- Attributes stand where their names come first and are read from the values that come last. A
document is rejected exactly if one of these values is no attribute, and then for the first name whose
last value is none. -/
theorem attributes_of_members (h : Gives source given) :
    (∀ document, ofText source = .ok document →
      document.attributes.map Prod.fst = (given.map Prod.fst).eraseDups ∧
        (document.attributes.map Prod.fst).Nodup ∧
          ∀ name a, (name, a) ∈ document.attributes ↔
            ∃ value, given.reverse.lookup name = some value ∧ Attribute.ofValue value = .ok a) ∧
    ((∃ error, ofText source = .error error) ↔
      ∃ name value error, given.reverse.lookup name = some value ∧
        Attribute.ofValue value = .error error) ∧
    ∀ before name after value error, (given.map Prod.fst).eraseDups = before ++ name :: after →
      (∀ other ∈ before, ∀ value, given.reverse.lookup other = some value →
        ∃ a, Attribute.ofValue value = .ok a) →
      given.reverse.lookup name = some value → Attribute.ofValue value = .error error →
        ∃ position, ofText source = .error ⟨.content error, some position⟩ := by
  refine ⟨fun document hdocument => ?_, ?_, ?_⟩
  · cases hattributes : attributesOfMembers (Assoc.ofList given) with
    | error error =>
      obtain ⟨position, hfailed⟩ := h.ofText_eq_error hattributes
      cases hdocument.symm.trans hfailed
    | ok attributes =>
      obtain ⟨found, hfound, rfl⟩ := h.ofText_eq_ok hattributes
      cases hdocument.symm.trans hfound
      refine ⟨?_, nodup_names hdocument, fun name a => mem_attributesOfMembers hattributes⟩
      rw [map_fst_attributesOfMembers hattributes, Assoc.map_fst_ofList]
  · have haccepted : (∃ attributes, attributesOfMembers (Assoc.ofList given) = .ok attributes) ↔ _ :=
      exists_attributesOfMembers_iff
    simp only [Prod.forall, Assoc.mem_ofList] at haccepted
    constructor
    · rintro ⟨error, hfailed⟩
      by_contra hnone
      simp only [not_exists, not_and] at hnone
      obtain ⟨attributes, hattributes⟩ := haccepted.2 fun name value hvalue => by
        cases ha : Attribute.ofValue value with
        | ok a => exact ⟨a, rfl⟩
        | error error => exact absurd ha (hnone name value error hvalue)
      obtain ⟨document, hdocument, -⟩ := h.ofText_eq_ok hattributes
      cases hdocument.symm.trans hfailed
    · rintro ⟨name, value, error, hvalue, herror⟩
      cases hattributes : attributesOfMembers (Assoc.ofList given) with
      | ok attributes =>
        obtain ⟨a, ha⟩ := haccepted.1 ⟨attributes, hattributes⟩ name value hvalue
        cases ha.symm.trans herror
      | error error =>
        obtain ⟨position, hfailed⟩ := h.ofText_eq_error hattributes
        exact ⟨_, hfailed⟩
  · intro before name after value error hnames hbefore hvalue herror
    exact h.ofText_eq_error (attributesOfMembers_eq_error hnames hbefore hvalue herror)

/-- A component attribute without its component does no harm before another value of that name. -/
theorem attributes_of_repeatedSource :
    Gives
        "\x7b\"attributes\":\x7b\"b\":\x7b\"type\":\"component\"\x7d,\"a\":null,\"b\":null\x7d\x7d"
        [("b", .object [("type", .string "component")]), ("a", .null), ("b", .null)] ∧
      ∃ document,
        ofText
            "\x7b\"attributes\":\x7b\"b\":\x7b\"type\":\"component\"\x7d,\"a\":null,\"b\":null\x7d\x7d" =
          .ok document ∧ document.attributes.map Prod.fst = ["b", "a"] := by
  have hgives : Gives
      "\x7b\"attributes\":\x7b\"b\":\x7b\"type\":\"component\"\x7d,\"a\":null,\"b\":null\x7d\x7d"
      [("b", .object [("type", .string "component")]), ("a", .null), ("b", .null)] := by
    refine ⟨.object [(Json.plainParts "attributes", .object [
      (Json.plainParts "b", .object [(Json.plainParts "type", .string (Json.plainParts "component"))]),
      (Json.plainParts "a", .null), (Json.plainParts "b", .null)])], _, _, ⟨[], ?_, .refl⟩, rfl,
      .inl rfl, rfl, rfl⟩
    have hvalue {rest} : TreeText ("\x7b\"type\":\"component\"\x7d".toList ++ rest)
        (.object [(Json.plainParts "type", .string (Json.plainParts "component"))]) rest :=
      .object .refl (.member (.of_plain "type" (by decide))
        (.scalar .refl (.string (.of_plain "component".toList (by decide)))) (.close .refl))
    have hnull {rest} : TreeText ("null".toList ++ rest) .null rest := .scalar .refl .null
    exact .object .refl (.member (.of_plain "attributes" (by decide)) (.object .refl
      (.member (.of_plain "b" (by decide)) hvalue (.member (.of_plain "a" (by decide)) hnull
        (.member (.of_plain "b" (by decide)) hnull (.close .refl))))) (.close .refl))
  refine ⟨hgives, ⟨none, [("b", ⟨.unrecognized, none⟩), ("a", ⟨.unrecognized, none⟩)]⟩,
    by decide +kernel, ?_⟩
  rw [((attributes_of_members hgives).1 _ (by decide +kernel)).1]
  decide

end Document

end ContentTypes.Schema
