/-!
# Association lists

Lists of pairs in which no key stands twice, in the order in which the keys came. `List.lookup` is
their view; `set` is the one way in which they change.
-/

namespace ContentTypes.Assoc

variable {α : Type} {key : String} {value : α} {pairs : List (String × α)}

/-- Sets the value of a key: a key that is there keeps its place, another goes to the end. -/
def set (key : String) (value : α) : List (String × α) → List (String × α)
  | [] => [(key, value)]
  | (other, old) :: rest =>
    if other = key then (other, value) :: rest else (other, old) :: set key value rest

theorem map_fst_set (key : String) (value : α) (pairs : List (String × α)) :
    (set key value pairs).map Prod.fst =
      if key ∈ pairs.map Prod.fst then pairs.map Prod.fst else pairs.map Prod.fst ++ [key] := by
  induction pairs with
  | nil => simp [set]
  | cons pair rest ih =>
    obtain ⟨other, old⟩ := pair
    by_cases h : other = key
    · simp [set, h]
    · have h' : key ≠ other := Ne.symm h
      simp only [set, h, if_false, List.map_cons, ih, List.mem_cons, h', false_or]
      split <;> simp

theorem lookup_set (key other : String) (value : α) (pairs : List (String × α)) :
    (set key value pairs).lookup other = if other = key then some value else pairs.lookup other := by
  induction pairs with
  | nil =>
    by_cases h : other = key
    · simp [set, h]
    · have hb : (other == key) = false := by simp [h]
      simp [set, List.lookup_cons, hb, h]
  | cons pair rest ih =>
    obtain ⟨first, old⟩ := pair
    by_cases hf : first = key
    · subst hf
      by_cases h : other = first
      · simp [set, h]
      · have hb : (other == first) = false := by simp [h]
        simp [set, List.lookup_cons, hb, h]
    · by_cases ho : other = first
      · subst ho
        simp [set, hf]
      · have hb : (other == first) = false := by simp [ho]
        simp [set, hf, List.lookup_cons, hb, ih]

theorem mem_set {pair : String × α} (h : pair ∈ set key value pairs) :
    pair = (key, value) ∨ pair ∈ pairs := by
  induction pairs with
  | nil => exact .inl (List.mem_singleton.1 h)
  | cons first rest ih =>
    obtain ⟨other, old⟩ := first
    unfold set at h
    split at h
    · rename_i hkey
      rcases List.mem_cons.1 h with rfl | h
      · exact .inl (by rw [hkey])
      · exact .inr (List.mem_cons_of_mem _ h)
    · rcases List.mem_cons.1 h with rfl | h
      · exact .inr List.mem_cons_self
      · exact (ih h).imp_right (List.mem_cons_of_mem _)

theorem nodup_set (h : (pairs.map Prod.fst).Nodup) : ((set key value pairs).map Prod.fst).Nodup := by
  rw [map_fst_set]
  split
  · exact h
  · rename_i hkey
    refine List.nodup_append.2 ⟨h, List.pairwise_singleton _ key, ?_⟩
    rintro other ho _ hk rfl
    exact hkey (List.mem_singleton.1 hk ▸ ho)

theorem set_of_not_mem (h : key ∉ pairs.map Prod.fst) :
    set key value pairs = pairs ++ [(key, value)] := by
  induction pairs with
  | nil => rfl
  | cons first rest ih =>
    rw [List.map_cons, List.mem_cons, not_or] at h
    rw [set, if_neg (Ne.symm h.1), ih h.2, List.cons_append]

theorem mem_of_lookup (h : pairs.lookup key = some value) : (key, value) ∈ pairs := by
  obtain ⟨front, back, hpairs, -⟩ := List.lookup_eq_some_iff.1 h
  simp [hpairs]

theorem lookup_eq_none_iff : pairs.lookup key = none ↔ key ∉ pairs.map Prod.fst := by
  rw [List.lookup_eq_none_iff]
  constructor
  · intro h hm
    obtain ⟨pair, hp, rfl⟩ := List.mem_map.1 hm
    exact bne_iff_ne.1 (h pair hp) rfl
  · exact fun h pair hp => bne_iff_ne.2 fun he => h (he ▸ List.mem_map_of_mem hp)

theorem mem_iff_lookup (h : (pairs.map Prod.fst).Nodup) :
    (key, value) ∈ pairs ↔ pairs.lookup key = some value := by
  induction pairs with
  | nil => simp
  | cons first rest ih =>
    obtain ⟨other, old⟩ := first
    rw [List.map_cons, List.nodup_cons] at h
    by_cases hkey : key = other
    · subst hkey
      have hrest : (key, value) ∉ rest := fun hm => h.1 (List.mem_map.2 ⟨_, hm, rfl⟩)
      simp [hrest, eq_comm]
    · simp [List.lookup_cons, hkey, beq_eq_false_iff_ne.2 hkey, ih h.2]

def ofList (pairs : List (String × α)) : List (String × α) :=
  pairs.foldl (fun done pair => set pair.1 pair.2 done) []

end ContentTypes.Assoc
