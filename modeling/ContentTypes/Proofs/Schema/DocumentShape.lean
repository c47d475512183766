import ContentTypes.Proofs.Json.RecordFields
import ContentTypes.Proofs.Schema.Document

/-!
# Which documents are accepted

`Document.exists_ofText_iff`: a text is a schema document exactly if it is JSON of a certain shape. The
record of a document and that of its names may both be written as arrays.
-/

namespace ContentTypes.Schema

open Json (Value Tree StringPart Fault Failure Record ReadsTree TreeText)

variable {limit room : Nat}

-- ---------------------------------------------------------------------------
-- Names
-- ---------------------------------------------------------------------------

def infoStore (name : String) (draft : InfoDraft) (tree : Tree) : Option InfoDraft :=
  (tree.optional? Tree.text?).map fun value =>
    if name = "singularName" then { draft with singularName := some value }
    else if name = "pluralName" then { draft with pluralName := some value }
    else { draft with displayName := some value }

def infoOf? (room : Nat) (tree : Tree) : Option Info :=
  (infoRecord.ofTree? infoStore {} room tree).map InfoDraft.finish

theorem readsTree_infoField {name : String} {isSet : InfoDraft → Bool}
    {set : InfoDraft → Option String → InfoDraft} (draft : InfoDraft) :
    ReadsTree limit ((infoField name isSet set).read draft)
      fun tree => (tree.optional? Tree.text?).map (set draft) :=
  Json.readsTree_readStringOnly.readOptional.placed.map (set draft)

theorem stores_infoRecord (limit : Nat) : infoRecord.Stores limit infoStore where
  nodup := by decide
  reads := by
    simp only [infoRecord, List.forall_mem_cons, List.not_mem_nil, false_implies, implies_true,
      and_true]
    exact ⟨readsTree_infoField, readsTree_infoField, readsTree_infoField⟩
  sets := by
    simp only [infoRecord, infoField, List.forall_mem_cons, List.not_mem_nil, false_implies,
      implies_true, and_true, infoStore, Option.map_eq_some_iff]
    refine ⟨⟨?_, ?_, ?_⟩, ⟨?_, ?_, ?_⟩, ?_, ?_, ?_⟩ <;>
    · rintro draft _ tree ⟨value, -, rfl⟩
      simp

theorem unset_infoRecord : ∀ field ∈ infoRecord.fields, field.isSet {} = false := by
  simp [infoRecord, infoField]

theorem readsTree_readInfo : ReadsTree limit (readInfo limit room) (infoOf? room) :=
  ReadsTree.map (Record.Stores.read (fun _ => infoRecord) (stores_infoRecord limit) unset_infoRecord)
    InfoDraft.finish

-- ---------------------------------------------------------------------------
-- Attributes
-- ---------------------------------------------------------------------------

def attributesOf? : (room : Nat) → Tree → Option (List (String × Attribute))
  | room + 1, .object members => do
    let given ← Json.decode? (Tree.value? room) members
    (attributesOfMembers (Assoc.ofList given)).toOption
  | _, _ => none

theorem attributesOf?_eq_some {tree : Tree} {attributes : List (String × Attribute)} :
    attributesOf? room tree = some attributes ↔
      ∃ inner members given, room = inner + 1 ∧ tree = .object members ∧
        Json.decode? (Tree.value? inner) members = some given ∧
          attributesOfMembers (Assoc.ofList given) = .ok attributes := by
  unfold attributesOf?
  split
  · simp only [Option.bind_eq_bind, Option.bind_eq_some_iff, toOption_eq_some]
    constructor
    · rintro ⟨given, hgiven, hattributes⟩
      exact ⟨_, _, given, rfl, rfl, hgiven, hattributes⟩
    · rintro ⟨_, _, given, ⟨⟩, ⟨⟩, hgiven, hattributes⟩
      exact ⟨given, hgiven, hattributes⟩
  · rename_i hne
    refine ⟨fun h => (by cases h), ?_⟩
    rintro ⟨inner, members, given, rfl, rfl, -⟩
    exact absurd rfl (hne inner members rfl)

theorem readsTree_readAttributes :
    ReadsTree limit (readAttributes limit room) (attributesOf? room) := by
  intro text rest attributes hlimit
  simp only [attributesOf?_eq_some]
  unfold readAttributes
  split
  · refine ⟨fun h => (by cases h), ?_⟩
    rintro ⟨_, _, _, _, _, ⟨⟩, -⟩
  · rename_i text₁ room hskip
    have hlength := Nat.lt_trans (Json.length_of_skipBlanks hskip) hlimit
    have hread {values} : Json.readMembers (Json.readValue limit room) [] limit text₁ =
        .ok (values, rest) ↔ _ := (Json.readsTree_readValue limit room).readMembers hlength hlength
    constructor
    · intro h
      obtain ⟨⟨given, rest'⟩, hgiven, h⟩ := bind_eq_ok.1 h
      rw [Json.placed_eq_ok] at hgiven
      dsimp only at h
      split at h
      · rename_i found hfound
        cases h
        obtain ⟨members, given, hmembers, hvalues, rfl⟩ := hread.1 hgiven
        exact ⟨_, (Json.treeText_object_iff hskip).2 ⟨members, rfl, hmembers⟩, room, members, given,
          rfl, rfl, hvalues, hfound⟩
      · cases h
    · rintro ⟨_, htree, _, members, given, ⟨⟩, rfl, hvalues, hfound⟩
      obtain ⟨_, ⟨⟩, hmembers⟩ := (Json.treeText_object_iff hskip).1 htree
      have hgiven := hread.2 ⟨members, given, hmembers, hvalues, rfl⟩
      refine bind_eq_ok.2 ⟨(given, rest), Json.placed_eq_ok.2 hgiven, ?_⟩
      simp only [hfound]
      rfl
  · rename_i hzero hsucc
    refine ⟨fun h => absurd (Json.placed_eq_ok.1 h) Json.mismatch_ne_ok, ?_⟩
    rintro ⟨_, htree, inner, members, given, rfl, rfl, -⟩
    cases htree with
    | object hopen hmembers =>
      exact absurd rfl (hsucc _ inner ((Json.afterBlanks_cons_iff (by decide)).1 hopen))
    | scalar _ hscalar => cases hscalar

-- ---------------------------------------------------------------------------
-- Documents
-- ---------------------------------------------------------------------------

def documentStore (room : Nat) (name : String) (draft : DocumentDraft) (tree : Tree) :
    Option DocumentDraft :=
  if name = "info" then
    (tree.optional? (infoOf? room)).map fun info => { draft with info := some info }
  else
    (attributesOf? room tree).map fun attributes => { draft with attributes := some attributes }

theorem stores_documentRecord (limit room : Nat) :
    (documentRecord limit room).Stores limit (documentStore room) where
  nodup := by
    simp [documentRecord]
  reads := by
    simp only [documentRecord, List.forall_mem_cons, List.not_mem_nil, false_implies, implies_true,
      and_true]
    refine ⟨fun draft => ?_, fun draft => ?_⟩
    · exact readsTree_readInfo.afterBlanks.readOptional.placed.map
        fun info => { draft with info := some info }
    · exact readsTree_readAttributes.map fun attributes => { draft with attributes := some attributes }
  sets := by
    simp only [documentRecord, List.forall_mem_cons, List.not_mem_nil, false_implies, implies_true,
      and_true, documentStore]
    refine ⟨⟨?_, ?_⟩, ?_, ?_⟩ <;>
    · intro draft _ tree h
      obtain ⟨value, -, rfl⟩ := Option.map_eq_some_iff.1 h
      simp

theorem unset_documentRecord :
    ∀ field ∈ (documentRecord limit room).fields, field.isSet {} = false := by
  simp [documentRecord]

def Document.ofTree? (limit : Nat) (tree : Tree) : Option Document :=
  ((documentRecord limit (Json.maximalDepth - 1)).ofTree? (documentStore (Json.maximalDepth - 1)) {}
    Json.maximalDepth tree).map fun draft => ⟨draft.info.join, draft.attributes.getD []⟩

theorem Document.ofText_eq_ok {source : String} {document : Document} :
    Document.ofText source = .ok document ↔
      ∃ tree, Json.IsJson source.toList tree ∧
        Document.ofTree? (Json.itemLimit source.toList) tree = some document :=
  (ReadsTree.map (Record.Stores.read _ (stores_documentRecord _ _) unset_documentRecord)
    fun draft => (⟨draft.info.join, draft.attributes.getD []⟩ : Document)).readText

-- ---------------------------------------------------------------------------
-- Shapes
-- ---------------------------------------------------------------------------

def IsName (tree : Tree) : Prop :=
  tree = .null ∨ ∃ parts text, tree = .string parts ∧ Json.textOf? parts = some text

def infoNames : List String := ["singularName", "pluralName", "displayName"]

def IsInfo (tree : Tree) : Prop :=
  tree = .null ∨ ∃ fields, tree.fields? infoNames = some fields ∧
    ∀ name ∈ infoNames, Json.AtMostOnce IsName name fields

/-- Whether a tree is an object whose last value for each name is an attribute. Arrays and objects may
be nested in its values `room` deep. -/
def IsAttributes (room : Nat) (tree : Tree) : Prop :=
  ∃ members given, tree = .object members ∧ Json.decode? (Tree.value? room) members = some given ∧
    ∀ name value, given.reverse.lookup name = some value → ∃ a, Attribute.ofValue value = .ok a

def IsDocument (tree : Tree) : Prop :=
  ∃ fields, tree.fields? ["info", "attributes"] = some fields ∧
    Json.AtMostOnce IsInfo "info" fields ∧
      Json.Once (IsAttributes (Json.maximalDepth - 2)) "attributes" fields

/-- The array form has both fields, which are then not named. -/
theorem isDocument_array_iff {items : List Tree} :
    IsDocument (.array items) ↔ ∃ info attributes, items = [info, attributes] ∧ IsInfo info ∧
      IsAttributes (Json.maximalDepth - 2) attributes := by
  match items with
  | [] => simp [IsDocument, Tree.fields?, Json.Once, Json.under]
  | [info] => simp [IsDocument, Tree.fields?, Json.Once, Json.under]
  | [info, attributes] =>
    have hinfo : Json.under "info" [("info", info), ("attributes", attributes)] = [info] := by
      simp [Json.under]
    have hattributes :
        Json.under "attributes" [("info", info), ("attributes", attributes)] = [attributes] := by
      simp [Json.under]
    simp [IsDocument, Tree.fields?, Json.AtMostOnce, Json.Once, hinfo, hattributes]
  | _ :: _ :: _ :: _ => simp [IsDocument, Tree.fields?]

theorem exists_text?_iff {tree : Tree} :
    (∃ text, tree.text? = some text) ↔
      ∃ parts text, tree = .string parts ∧ Json.textOf? parts = some text := by
  cases tree <;> simp [Tree.text?]

theorem accepts_infoRecord : infoRecord.Accepts infoStore fun _ => IsName := by
  intro field _ draft tree
  rw [infoStore, exists_map_eq_some, Tree.exists_optional?_iff, exists_text?_iff]
  exact Iff.rfl

theorem exists_infoOf?_iff {tree : Tree} (hroom : room ≠ 0) :
    (tree = .null ∨ ∃ info, infoOf? room tree = some info) ↔ IsInfo tree := by
  have hread : (∃ draft, infoRecord.ofTree? infoStore {} room tree = some draft) ↔ _ :=
    (stores_infoRecord 0).exists_ofTree?_iff accepts_infoRecord room unset_infoRecord
  rw [infoOf?, exists_map_eq_some, hread, IsInfo]
  simp [hroom, infoRecord, infoField, infoNames]

theorem exists_attributesOfMembers_iff {members : List (String × Value)} :
    (∃ attributes, attributesOfMembers members = .ok attributes) ↔
      ∀ member ∈ members, ∃ a, Attribute.ofValue member.2 = .ok a := by
  constructor
  · rintro ⟨attributes, h⟩ member hm
    obtain ⟨_, -, hmember⟩ := exists_of_mapM_eq_ok h member hm
    obtain ⟨a, ha, -⟩ := bind_eq_ok.1 hmember
    exact ⟨a, ha⟩
  · intro h
    have hread : ∃ attributes, attributesOfMembers members = .ok attributes ∧ _ :=
      exists_mapM_eq_ok (P := fun _ => True) fun member hm => by
        obtain ⟨a, ha⟩ := h member hm
        exact ⟨(member.1, a), bind_eq_ok.2 ⟨a, ha, rfl⟩, trivial⟩
    obtain ⟨attributes, hattributes, -⟩ := hread
    exact ⟨attributes, hattributes⟩

theorem exists_attributesOf?_iff {tree : Tree} :
    (∃ attributes, attributesOf? (room + 1) tree = some attributes) ↔ IsAttributes room tree := by
  have hvalues : ∀ {given : List (String × Value)},
      (∃ attributes, attributesOfMembers (Assoc.ofList given) = .ok attributes) ↔
        ∀ name value, given.reverse.lookup name = some value →
          ∃ a, Attribute.ofValue value = .ok a := by
    intro given
    simp only [exists_attributesOfMembers_iff, Prod.forall, Assoc.mem_ofList]
  simp only [attributesOf?_eq_some, IsAttributes, ← hvalues]
  constructor
  · rintro ⟨attributes, _, members, given, ⟨⟩, htree, hgiven, hattributes⟩
    exact ⟨members, given, htree, hgiven, attributes, hattributes⟩
  · rintro ⟨members, given, htree, hgiven, attributes, hattributes⟩
    exact ⟨attributes, room, members, given, rfl, htree, hgiven, hattributes⟩

theorem accepts_documentRecord (limit room : Nat) :
    (documentRecord limit (room + 1)).Accepts (documentStore (room + 1))
      fun name => if name = "info" then IsInfo else IsAttributes room := by
  intro field hm draft tree
  dsimp only [documentStore]
  split
  · rw [exists_map_eq_some, Tree.exists_optional?_iff, exists_infoOf?_iff (Nat.succ_ne_zero room)]
  · rw [exists_map_eq_some, exists_attributesOf?_iff]

theorem exists_ofTree?_iff (limit : Nat) {tree : Tree} :
    (∃ document, Document.ofTree? limit tree = some document) ↔ IsDocument tree := by
  have hread {tree} : (∃ draft, (documentRecord limit (Json.maximalDepth - 2 + 1)).ofTree? _ {}
      Json.maximalDepth tree = some draft) ↔ _ :=
    (stores_documentRecord limit (Json.maximalDepth - 2 + 1)).exists_ofTree?_iff
      (accepts_documentRecord limit (Json.maximalDepth - 2)) Json.maximalDepth unset_documentRecord
  have hroom : Json.maximalDepth - 1 = Json.maximalDepth - 2 + 1 := rfl
  rw [Document.ofTree?, exists_map_eq_some, hroom, hread, IsDocument]
  simp only [documentRecord, Json.maximalDepth, ne_eq, reduceCtorEq, not_false_eq_true, Nat.reduceSub,
    Nat.reduceAdd, List.map_cons, List.map_nil, List.forall_mem_cons, List.not_mem_nil, false_implies,
    implies_true, and_true, true_and, if_true, if_false, Bool.false_eq_true, String.reduceEq,
    forall_const]
  exact exists_congr fun fields => and_congr_right fun _ => and_congr_right fun _ =>
    and_iff_right_of_imp .inr

/-- A text is a document exactly if it is JSON of this shape. -/
theorem Document.exists_ofText_iff {source : String} :
    (∃ document, Document.ofText source = .ok document) ↔
      ∃ tree, Json.IsJson source.toList tree ∧ IsDocument tree := by
  simp only [Document.ofText_eq_ok, ← exists_ofTree?_iff (Json.itemLimit source.toList)]
  constructor
  · rintro ⟨document, tree, hjson, h⟩
    exact ⟨tree, hjson, document, h⟩
  · rintro ⟨tree, hjson, document, h⟩
    exact ⟨document, tree, hjson, h⟩

example : Document.ofText "[null,\x7b\x7d]" = .ok ⟨none, []⟩ := by decide +kernel

end ContentTypes.Schema
