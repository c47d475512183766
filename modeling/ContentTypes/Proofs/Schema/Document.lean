import ContentTypes.Proofs.Assoc
import ContentTypes.Proofs.Json.Record
import ContentTypes.Schema.Document

/-!
# The attributes of a document

However a document names its attributes, and however often, the names that are read from it are
pairwise different: `Document.nodup_names`.
-/

namespace ContentTypes.Schema

open Json (Value Failure)

theorem map_fst_attributesOfMembers {members : List (String × Value)}
    {attributes : List (String × Attribute)} (h : attributesOfMembers members = .ok attributes) :
    attributes.map Prod.fst = members.map Prod.fst := by
  induction members generalizing attributes with
  | nil =>
    obtain rfl := pure_eq_ok.1 h
    rfl
  | cons member members ih =>
    obtain ⟨first, others, hfirst, hothers, rfl⟩ := mapM_cons_eq_ok.1 h
    obtain ⟨a, -, hfirst⟩ := bind_eq_ok.1 hfirst
    obtain rfl := pure_eq_ok.1 hfirst
    rw [List.map_cons, List.map_cons, ih hothers]

theorem nodup_names_readAttributes {limit room : Nat} {text rest : List Char}
    {attributes : List (String × Attribute)}
    (h : readAttributes limit room text = .ok (attributes, rest)) :
    (attributes.map Prod.fst).Nodup := by
  unfold readAttributes at h
  split at h
  · cases h
  · obtain ⟨⟨members, rest'⟩, -, h⟩ := bind_eq_ok.1 h
    dsimp only at h
    split at h
    · rename_i found hfound
      obtain rfl := (Prod.mk.inj (pure_eq_ok.1 h)).1
      rw [map_fst_attributesOfMembers hfound]
      exact Assoc.nodup_setAll List.nodup_nil
    · cases h
  · unfold Json.mismatch at h
    split at h
    · cases h
    · cases h
    · obtain ⟨found, -, h⟩ := bind_eq_ok.1 (Json.placed_eq_ok.1 h)
      cases h

def DocumentDraft.Distinct (draft : DocumentDraft) : Prop :=
  ∀ attributes, draft.attributes = some attributes → (attributes.map Prod.fst).Nodup

theorem keeps_distinct (limit room : Nat) :
    (documentRecord limit room).Keeps DocumentDraft.Distinct := by
  refine List.forall_mem_cons.2 ⟨?_, List.forall_mem_singleton.2 ?_⟩
  · intro draft text draft' rest hdraft hread
    obtain ⟨found, -, hread⟩ := bind_eq_ok.1 hread
    obtain rfl := (Prod.mk.inj (pure_eq_ok.1 hread)).1
    exact hdraft
  · rintro draft text draft' rest - hread
    obtain ⟨⟨attributes, rest'⟩, hattributes, hread⟩ := bind_eq_ok.1 hread
    obtain rfl := (Prod.mk.inj (pure_eq_ok.1 hread)).1
    rintro _ ⟨⟩
    exact nodup_names_readAttributes hattributes

theorem Document.nodup_names {source : String} {document : Document}
    (h : Document.ofText source = .ok document) : (document.attributes.map Prod.fst).Nodup := by
  obtain ⟨rest, h⟩ := Json.exists_of_readText h
  obtain ⟨⟨draft, rest'⟩, hread, h⟩ := bind_eq_ok.1 h
  obtain rfl := (Prod.mk.inj (pure_eq_ok.1 h)).1
  have hstart : ({} : DocumentDraft).Distinct := fun _ hnone => nomatch hnone
  have hdraft : draft.Distinct := Json.Record.Keeps.read (keeps_distinct _) hstart hread
  cases hattributes : draft.attributes with
  | none => exact List.nodup_nil
  | some attributes => exact hdraft attributes hattributes

end ContentTypes.Schema
