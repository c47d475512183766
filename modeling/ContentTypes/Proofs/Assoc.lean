import ContentTypes.Assoc
import Mathlib.Data.List.Induction
import Mathlib.Data.List.Nodup

/-!
# Setting pairs one after the other

Of pairs with one key the last one is found: `lookup_setAll`. Pairs with different keys end up in the
order in which they are set: `setAll_of_nodup`. In a list made of pairs a key stands where it came first:
`map_fst_ofList`.
-/

namespace ContentTypes.Assoc

variable {α : Type} {key : String} {value : α} {pairs base : List (String × α)}

theorem eraseDups_append_singleton [DecidableEq α] (items : List α) (item : α) :
    (items ++ [item]).eraseDups =
      if item ∈ items then items.eraseDups else items.eraseDups ++ [item] := by
  rw [List.eraseDups_append]
  by_cases h : item ∈ items
  · simp [List.removeAll, h]
  · simp [List.removeAll, List.eraseDups_cons, h]

theorem nodup_eraseDups [DecidableEq α] (items : List α) : items.eraseDups.Nodup := by
  induction items using List.reverseRecOn with
  | nil => exact List.nodup_nil
  | append_singleton items item ih =>
    rw [eraseDups_append_singleton]
    split
    · exact ih
    · rename_i hnew
      exact ih.append (List.nodup_singleton item) (by simpa using hnew)

theorem not_mem_of_nodup {front back : List α} {item : α} (h : (front ++ item :: back).Nodup) :
    item ∉ front := fun hm =>
  (List.nodup_cons.1 (List.nodup_middle.1 h)).1 (List.mem_append_left back hm)

def setAll (base pairs : List (String × α)) : List (String × α) :=
  pairs.foldl (fun done pair => set pair.1 pair.2 done) base

theorem nodup_setAll (h : (base.map Prod.fst).Nodup) : ((setAll base pairs).map Prod.fst).Nodup := by
  induction pairs generalizing base with
  | nil => exact h
  | cons pair rest ih => exact ih (nodup_set h)

theorem mem_setAll {pair : String × α} (h : pair ∈ setAll base pairs) :
    pair ∈ pairs ∨ pair ∈ base := by
  induction pairs generalizing base with
  | nil => exact .inr h
  | cons first rest ih =>
    rcases ih h with h | h
    · exact .inl (List.mem_cons_of_mem _ h)
    · rcases mem_set h with rfl | h
      · exact .inl List.mem_cons_self
      · exact .inr h

theorem lookup_setAll :
    (setAll base pairs).lookup key = (pairs.reverse.lookup key).or (base.lookup key) := by
  induction pairs generalizing base with
  | nil => simp [setAll]
  | cons pair rest ih =>
    rw [setAll, List.foldl_cons, ← setAll, ih, List.reverse_cons, List.lookup_append, Option.or_assoc,
      lookup_set]
    congr 1
    obtain ⟨first, value⟩ := pair
    by_cases h : key = first
    · simp [h]
    · simp [List.lookup_cons, h, beq_eq_false_iff_ne.2 h]

theorem setAll_of_nodup (h : ((base ++ pairs).map Prod.fst).Nodup) :
    setAll base pairs = base ++ pairs := by
  induction pairs generalizing base with
  | nil => simp [setAll]
  | cons pair rest ih =>
    have hkey : pair.1 ∉ base.map Prod.fst := by
      rw [List.map_append, List.map_cons] at h
      exact not_mem_of_nodup h
    rw [setAll, List.foldl_cons, ← setAll, set_of_not_mem hkey, ih (by simpa using h)]
    simp

theorem nodup_ofList : ((ofList pairs).map Prod.fst).Nodup :=
  nodup_setAll List.nodup_nil

theorem mem_ofList : (key, value) ∈ ofList pairs ↔ pairs.reverse.lookup key = some value := by
  rw [mem_iff_lookup nodup_ofList, show ofList pairs = setAll [] pairs from rfl, lookup_setAll,
    List.lookup_nil, Option.or_none]

theorem map_fst_ofList : (ofList pairs).map Prod.fst = (pairs.map Prod.fst).eraseDups := by
  induction pairs using List.reverseRecOn with
  | nil => rfl
  | append_singleton pairs pair ih =>
    rw [ofList, List.foldl_append, ← ofList, List.foldl_cons, List.foldl_nil, map_fst_set, ih,
      List.map_append, List.map_singleton, eraseDups_append_singleton]
    simp only [List.mem_eraseDups]

end ContentTypes.Assoc
