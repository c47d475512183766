import ContentTypes.Proofs.Json.RecordReading

/-!
# What a record accepts

A record accepts what gives each of its fields at most once, the required ones once, with a tree that
the field accepts: `Record.Stores.exists_ofTree?_iff`.
-/

namespace ContentTypes.Json

def under (name : String) (fields : List (String × Tree)) : List Tree :=
  fields.filterMap fun field => if field.1 = name then some field.2 else none

/-- Whether a field is given once, with a tree that is accepted. -/
def Once (accepts : Tree → Prop) (name : String) (fields : List (String × Tree)) : Prop :=
  ∃ tree, under name fields = [tree] ∧ accepts tree

def AtMostOnce (accepts : Tree → Prop) (name : String) (fields : List (String × Tree)) : Prop :=
  under name fields = [] ∨ Once accepts name fields

variable {σ : Type} {record : Record σ} {limit : Nat} {store : String → σ → Tree → Option σ}
  {accepts : String → Tree → Prop} {name other : String} {tree : Tree}
  {fields : List (String × Tree)} {state : σ}

theorem under_cons_self : under name ((name, tree) :: fields) = tree :: under name fields := by
  simp [under]

theorem under_cons_of_ne (h : other ≠ name) :
    under name ((other, tree) :: fields) = under name fields := by
  simp [under, h]

theorem under_append {others : List (String × Tree)} :
    under name (fields ++ others) = under name fields ++ under name others :=
  List.filterMap_append

theorem AtMostOnce.of_append {accepts : Tree → Prop} {others : List (String × Tree)}
    (h : AtMostOnce accepts name (fields ++ others)) : AtMostOnce accepts name fields := by
  rcases h with h | ⟨tree, h, htree⟩
  · rw [under_append, List.append_eq_nil_iff] at h
    exact .inl h.1
  · rw [under_append, List.append_eq_singleton_iff] at h
    rcases h with ⟨h, -⟩ | ⟨h, -⟩
    · exact .inl h
    · exact .inr ⟨tree, h, htree⟩

theorem under_eq_nil_iff : under name fields = [] ↔ name ∉ fields.map Prod.fst := by
  induction fields with
  | nil => simp [under]
  | cons given fields ih =>
    obtain ⟨other, tree⟩ := given
    by_cases h : other = name
    · subst h
      simp [under_cons_self]
    · simp [under_cons_of_ne h, ih, Ne.symm h]

theorem exists_split_of_under (h : under name fields = [tree]) :
    ∃ before after, fields = before ++ (name, tree) :: after ∧ under name before = [] := by
  induction fields with
  | nil => cases h
  | cons given fields ih =>
    obtain ⟨other, found⟩ := given
    by_cases hname : other = name
    · subst hname
      rw [under_cons_self] at h
      obtain ⟨rfl, -⟩ := List.cons.inj h
      exact ⟨[], fields, rfl, rfl⟩
    · rw [under_cons_of_ne hname] at h
      obtain ⟨before, after, rfl, hbefore⟩ := ih h
      exact ⟨(other, found) :: before, after, rfl, by rw [under_cons_of_ne hname, hbefore]⟩

namespace Record

/-- Whether the fields of a record accept trees regardless of what has been read. -/
def Accepts (record : Record σ) (store : String → σ → Tree → Option σ)
    (accepts : String → Tree → Prop) : Prop :=
  ∀ field ∈ record.fields, ∀ state tree,
    (∃ state', store field.name state tree = some state') ↔ accepts field.name tree

/-- Storing a tree sets the field of its name, and leaves the others as free as they were. -/
theorem Stores.fits_cons_iff (h : record.Stores limit store) {field other : Field σ} {stored : σ}
    (hfield : field ∈ record.fields) (hother : other ∈ record.fields)
    (hset : field.isSet state = false) (haccept : accepts field.name tree)
    (hstore : store field.name state tree = some stored) :
    (under other.name ((field.name, tree) :: fields) = [] ∨ other.isSet state = false ∧
        Once (accepts other.name) other.name ((field.name, tree) :: fields)) ↔
      (under other.name fields = [] ∨ other.isSet stored = false ∧
        Once (accepts other.name) other.name fields) := by
  have hsets := h.sets field hfield other hother hstore
  by_cases hname : other.name = field.name
  · obtain rfl := List.inj_on_of_nodup_map h.nodup hother hfield hname
    have hstored : other.isSet stored = true := hsets.2 (.inl rfl)
    simp [Once, under_cons_self, hset, hstored, haccept]
  · have hstored : other.isSet stored = other.isSet state := by
      rw [Bool.eq_iff_iff, hsets, or_iff_right hname]
    rw [Once, Once, under_cons_of_ne (Ne.symm hname), hstored]

theorem Stores.exists_run?_iff (h : record.Stores limit store)
    (haccepts : record.Accepts store accepts) :
    (∃ state', record.run? store state fields = some state') ↔
      ∀ field ∈ record.fields, under field.name fields = [] ∨
        field.isSet state = false ∧ Once (accepts field.name) field.name fields := by
  induction fields generalizing state with
  | nil => simp [run?, under]
  | cons given fields ih =>
    obtain ⟨name, tree⟩ := given
    cases hfield : record.fields.find? (·.name = name) with
    | none =>
      have hname : ∀ field ∈ record.fields, name ≠ field.name := fun field hm he => by
        simpa [he] using List.find?_eq_none.1 hfield field hm
      simp only [run?_other hfield, ih, Once]
      refine forall₂_congr fun field hm => ?_
      rw [under_cons_of_ne (hname field hm)]
    | some field =>
      have hm := List.mem_of_find?_eq_some hfield
      obtain rfl : field.name = name := by simpa using List.find?_some hfield
      simp only [run?_field hfield]
      constructor
      · rintro ⟨state', hset, stored, hstore, hrun⟩ other hmem
        have haccept := (haccepts field hm state tree).1 ⟨stored, hstore⟩
        exact (h.fits_cons_iff hm hmem hset haccept hstore).2 (ih.1 ⟨state', hrun⟩ other hmem)
      · intro hall
        obtain hnone | ⟨hset, tree', hunder, haccept⟩ := hall field hm
        · rw [under_cons_self] at hnone
          cases hnone
        · rw [under_cons_self] at hunder
          obtain ⟨rfl, -⟩ := List.cons.inj hunder
          obtain ⟨stored, hstore⟩ := (haccepts field hm state tree).2 haccept
          obtain ⟨state', hrun⟩ := ih.2 fun other hmem =>
            (h.fits_cons_iff hm hmem hset haccept hstore).1 (hall other hmem)
          exact ⟨state', hset, stored, hstore, hrun⟩

theorem run?_keeps {P : σ → Prop} {state' : σ}
    (hkeeps : ∀ field ∈ record.fields, field.name ≠ name → ∀ state state' tree,
      store field.name state tree = some state' → P state → P state')
    (hnone : under name fields = []) (hrun : record.run? store state fields = some state')
    (hstate : P state) : P state' := by
  induction fields generalizing state with
  | nil =>
    cases hrun
    exact hstate
  | cons given fields ih =>
    obtain ⟨other, tree⟩ := given
    have hname : other ≠ name := by
      rintro rfl
      simp [under_cons_self] at hnone
    rw [under_cons_of_ne hname] at hnone
    cases hfield : record.fields.find? (·.name = other) with
    | none =>
      rw [run?_other hfield] at hrun
      exact ih hnone hrun hstate
    | some field =>
      obtain ⟨-, state₁, hstore, hrest⟩ := (run?_field hfield).1 hrun
      obtain rfl : field.name = other := by simpa using List.find?_some hfield
      have hm := List.mem_of_find?_eq_some hfield
      exact ih hnone hrest (hkeeps field hm hname _ _ _ hstore hstate)

theorem Stores.holds_of_run? (h : record.Stores limit store) {P : σ → Prop} {state' : σ}
    {field : Field σ} (hfield : field ∈ record.fields)
    (hkeeps : ∀ other ∈ record.fields, other.name ≠ field.name → ∀ state state' tree,
      store other.name state tree = some state' → P state → P state')
    (hholds : ∀ state state', store field.name state tree = some state' → P state')
    (hunder : under field.name fields = [tree])
    (hrun : record.run? store state fields = some state') : P state' := by
  induction fields generalizing state with
  | nil => cases hunder
  | cons given fields ih =>
    obtain ⟨name, found⟩ := given
    by_cases hname : name = field.name
    · subst hname
      rw [under_cons_self] at hunder
      obtain ⟨rfl, hnone⟩ := List.cons.inj hunder
      obtain ⟨-, state₁, hstore, hrest⟩ := (run?_field (h.find?_name hfield)).1 hrun
      exact run?_keeps hkeeps hnone hrest (hholds _ _ hstore)
    · rw [under_cons_of_ne hname] at hunder
      cases hother : record.fields.find? (·.name = name) with
      | none =>
        rw [run?_other hother] at hrun
        exact ih hunder hrun
      | some other =>
        obtain ⟨-, state₁, -, hrest⟩ := (run?_field hother).1 hrun
        exact ih hunder hrest

/-- A record accepts what gives its fields at most once, the required ones once. -/
theorem Stores.exists_ofTree?_iff (h : record.Stores limit store)
    (haccepts : record.Accepts store accepts) {start : σ} (room : Nat)
    (hunset : ∀ field ∈ record.fields, field.isSet start = false) :
    (∃ state, record.ofTree? store start room tree = some state) ↔
      room ≠ 0 ∧ ∃ fields, tree.fields? (record.fields.map (·.name)) = some fields ∧
        ∀ field ∈ record.fields, AtMostOnce (accepts field.name) field.name fields ∧
          (field.required = true → Once (accepts field.name) field.name fields) := by
  have hrun : ∀ {fields}, (∃ state, record.run? store start fields = some state) ↔
      ∀ field ∈ record.fields, AtMostOnce (accepts field.name) field.name fields := by
    intro fields
    rw [h.exists_run?_iff haccepts]
    refine forall₂_congr fun field hm => ?_
    simp [AtMostOnce, hunset field hm]
  have hset : ∀ {fields state}, record.run? store start fields = some state →
      ∀ field ∈ record.fields, (field.isSet state = true ↔ under field.name fields ≠ []) := by
    intro fields state hrun field hm
    simp [h.isSet_iff_of_run? hm hrun, hunset field hm, under_eq_nil_iff]
  simp only [ofTree?_eq_some]
  constructor
  · rintro ⟨state, hroom, fields, hfields, hread, hcomplete⟩
    have hall := hrun.1 ⟨state, hread⟩
    refine ⟨hroom, fields, hfields, fun field hm => ⟨hall field hm, fun hrequired => ?_⟩⟩
    have hne := (hset hread field hm).1 (hcomplete field hm hrequired)
    exact (hall field hm).resolve_left hne
  · rintro ⟨hroom, fields, hfields, hall⟩
    obtain ⟨state, hread⟩ := hrun.2 fun field hm => (hall field hm).1
    refine ⟨state, hroom, fields, hfields, hread, fun field hm hrequired => ?_⟩
    obtain ⟨given, hunder, -⟩ := (hall field hm).2 hrequired
    exact (hset hread field hm).2 (by simp [hunder])

end Record

end ContentTypes.Json
