import ContentTypes.Proofs.Assoc
import ContentTypes.Proofs.Settings.Field

/-!
# Merging sources

Sources that say only what is in fields are merged field by field: what the last of them says stands,
and a table never takes the place of another. The outcome is in a form that merging leaves as it is.
-/

namespace ContentTypes.Setting

open Settings (Field KeyPath)

variable {entries part : List (String × Setting)} {field other : Field} {name : String}
  {value : Setting}

-- ---------------------------------------------------------------------------
-- Single values
-- ---------------------------------------------------------------------------

def isTable : Setting → Bool
  | .table _ _ => true
  | _ => false

theorem isTable_of_read? (h : (field.read? value).isSome = true) : value.isTable = false := by
  cases value with
  | table => cases field <;> cases h
  | _ => rfl

theorem setEntry_of_isTable (h : value.isTable = false) (key : String) :
    setEntry key entries value = Assoc.set (Text.lowercase key) value entries := by
  cases value with
  | table => cases h
  | _ => rw [setEntry]; exact fun _ _ he => nomatch he

-- ---------------------------------------------------------------------------
-- Merged entries
-- ---------------------------------------------------------------------------

def Fits (name key : String) (value : Setting) : Prop :=
  ∃ field : Field, field.table? = some name ∧ field.key = key ∧ (field.read? value).isSome = true

/-- An entry as merging leaves it. -/
inductive IsMergedEntry : String → Setting → Prop
  | value {field : Field} {key : String} {value : Setting} : field.table? = none →
    field.key = key → (field.read? value).isSome = true → IsMergedEntry key value
  | table {name : String} {part : List (String × Setting)} : name ∈ Field.tables →
    (part.map Prod.fst).Nodup → (∀ pair ∈ part, Fits name pair.1 pair.2) →
    IsMergedEntry name (.table none part)

structure IsMerged (entries : List (String × Setting)) : Prop where
  keys : (entries.map Prod.fst).Nodup
  entry : ∀ pair ∈ entries, IsMergedEntry pair.1 pair.2

def partOf (entries : List (String × Setting)) (name : String) : List (String × Setting) :=
  ((entries.lookup name).map (·.entries)).getD []

def valueAt? (entries : List (String × Setting)) (field : Field) : Option Setting :=
  match field.table? with
  | none => entries.lookup field.key
  | some name => (partOf entries name).lookup field.key

theorem valueAt?_of_none (h : field.table? = none) :
    valueAt? entries field = entries.lookup field.key := by
  rw [valueAt?, h]

theorem valueAt?_of_some (h : field.table? = some name) :
    valueAt? entries field = (partOf entries name).lookup field.key := by
  rw [valueAt?, h]

theorem IsMergedEntry.of_table (h : IsMergedEntry name value) (ht : name ∈ Field.tables) :
    ∃ part, value = .table none part ∧ (part.map Prod.fst).Nodup ∧
      ∀ pair ∈ part, Fits name pair.1 pair.2 := by
  cases h with
  | value hfield hkey _ => exact absurd (hkey ▸ ht) (Field.key_not_mem_tables hfield)
  | table _ hkeys hfits => exact ⟨_, rfl, hkeys, hfits⟩

theorem IsMerged.partOf (h : IsMerged entries) (ht : name ∈ Field.tables) :
    ((partOf entries name).map Prod.fst).Nodup ∧
      ∀ pair ∈ partOf entries name, Fits name pair.1 pair.2 := by
  unfold Setting.partOf
  cases hlookup : entries.lookup name with
  | none => exact ⟨List.nodup_nil, fun _ hm => nomatch hm⟩
  | some value =>
    obtain ⟨part, rfl, hkeys, hfits⟩ :=
      (h.entry _ ((Assoc.mem_iff_lookup h.keys).2 hlookup)).of_table ht
    exact ⟨hkeys, hfits⟩

theorem IsMerged.set (h : IsMerged entries) {key : String} (hentry : IsMergedEntry key value) :
    IsMerged (Assoc.set key value entries) := by
  refine ⟨Assoc.nodup_set h.keys, fun pair hm => ?_⟩
  rcases Assoc.mem_set hm with rfl | hm
  · exact hentry
  · exact h.entry pair hm

theorem IsMerged.lookup_getD (h : IsMerged entries) (ht : name ∈ Field.tables) (absent : Setting) :
    (entries.lookup name).getD absent = .table none (Setting.partOf entries name) ∨
      (entries.lookup name).getD absent = absent ∧ Setting.partOf entries name = [] := by
  cases hlookup : entries.lookup name with
  | none => exact .inr ⟨rfl, by rw [Setting.partOf, hlookup]; rfl⟩
  | some value =>
    obtain ⟨part, rfl, -⟩ := (h.entry _ ((Assoc.mem_iff_lookup h.keys).2 hlookup)).of_table ht
    exact .inl (by rw [Setting.partOf, hlookup]; rfl)

-- ---------------------------------------------------------------------------
-- One entry of a source
-- ---------------------------------------------------------------------------

def putPart (name : String) (part entries : List (String × Setting)) : List (String × Setting) :=
  Assoc.set name (.table none (Assoc.setAll (partOf entries name) part)) entries

theorem setEntries_table (h : ∀ pair ∈ part, Fits name pair.1 pair.2)
    (base : List (String × Setting)) :
    setEntries (.table none base) part = .table none (Assoc.setAll base part) := by
  induction part generalizing base with
  | nil => rw [setEntries]; rfl
  | cons pair rest ih =>
    obtain ⟨key, value⟩ := pair
    obtain ⟨field, -, rfl, hread⟩ := h _ List.mem_cons_self
    rw [setEntries, setEntry_of_isTable (isTable_of_read? hread), field.lowercase_key]
    exact ih (fun pair hm => h pair (List.mem_cons_of_mem _ hm)) _

theorem setPath_table (hm : IsMerged entries) (ht : name ∈ Field.tables)
    (h : ∀ pair ∈ part, Fits name pair.1 pair.2) (origin : Origin) :
    (Setting.table none entries).setPath (.ofText name) (.table origin part) =
      .table none (putPart name part entries) := by
  have htarget : (entries.lookup name).getD (.table none []) =
      .table none (partOf entries name) := by
    rcases hm.lookup_getD ht (.table none []) with hsome | ⟨hnone, hpart⟩
    · exact hsome
    · rw [hnone, hpart]
  rw [Field.ofText_table ht]
  simp only [setPath, setAt, withEntries, Setting.entries, setEntry, Field.lowercase_table ht,
    htarget, setEntries_table h]
  rfl

theorem setPath_field (hm : IsMerged entries) (hfield : field.table? = some name)
    (hread : (field.read? value).isSome = true) :
    (Setting.table none entries).setPath (.ofText field.path) value =
      .table none (putPart name [(field.key, value)] entries) := by
  have ht := Field.mem_tables hfield
  rw [field.ofText_path, hfield]
  simp only [setPath, setAt, setEntry_of_isTable (isTable_of_read? hread), field.lowercase_key]
  rcases hm.lookup_getD ht (.null none) with hsome | ⟨hnone, hpart⟩
  · simp only [Setting.entries, withEntries, hsome]
    rfl
  · simp only [Setting.entries, withEntries, hnone, putPart, hpart]
    rfl

theorem setPath_value (hfield : field.table? = none) (hread : (field.read? value).isSome = true) :
    (Setting.table none entries).setPath (.ofText field.path) value =
      .table none (Assoc.set field.key value entries) := by
  rw [field.ofText_path, hfield]
  simp only [setPath, setAt, setEntry_of_isTable (isTable_of_read? hread), field.lowercase_key]
  rfl

theorem IsMerged.putPart (hm : IsMerged entries) (ht : name ∈ Field.tables)
    (h : ∀ pair ∈ part, Fits name pair.1 pair.2) : IsMerged (putPart name part entries) := by
  obtain ⟨hkeys, hfits⟩ := hm.partOf ht
  refine hm.set (.table ht (Assoc.nodup_setAll hkeys) fun pair hp => ?_)
  rcases Assoc.mem_setAll hp with hp | hp
  · exact h pair hp
  · exact hfits pair hp

theorem partOf_set_of_ne {key : String} (h : name ≠ key) :
    partOf (Assoc.set key value entries) name = partOf entries name := by
  rw [partOf, Assoc.lookup_set, if_neg h, partOf]

theorem fits_iff {key : String} (ht : name ∈ Field.tables) :
    Fits name key value ↔
      ∃ field : Field, field.path = name ++ "." ++ key ∧ (field.read? value).isSome = true := by
  constructor
  · rintro ⟨field, hfield, rfl, hread⟩
    exact ⟨field, Field.path_of_table? hfield, hread⟩
  · rintro ⟨field, hpath, hread⟩
    obtain ⟨hfield, hkey⟩ := Field.eq_of_path ht hpath
    exact ⟨field, hfield, hkey, hread⟩

def inTable (name : String) (part : List (String × Setting)) : List (String × Setting) :=
  part.map fun pair => (name ++ "." ++ pair.1, pair.2)

theorem lookup_inTable (key : String) :
    (inTable name part).reverse.lookup (name ++ "." ++ key) = part.reverse.lookup key := by
  unfold inTable
  rw [← List.map_reverse]
  induction part.reverse with
  | nil => rfl
  | cons pair rest ih =>
    have hsame : (name ++ "." ++ key == name ++ "." ++ pair.1) = (key == pair.1) := by
      simp [beq_eq_beq, String.append_right_inj]
    rw [List.map_cons, List.lookup_cons, hsame, ih, ← List.lookup_cons]

theorem lookup_inTable_of_ne (hfits : ∀ pair ∈ part, Fits name pair.1 pair.2)
    (hfield : field.table? ≠ some name) : (inTable name part).reverse.lookup field.path = none := by
  rw [List.lookup_eq_none_iff]
  intro leaf hm
  obtain ⟨pair, hp, rfl⟩ := List.mem_map.1 (List.mem_reverse.1 hm)
  obtain ⟨other, hother, hkey, -⟩ := hfits pair hp
  rw [bne_iff_ne, ← hkey, ← Field.path_of_table? hother]
  intro he
  exact hfield (Field.path_injective he ▸ hother)

theorem valueAt?_putPart (ht : name ∈ Field.tables)
    (hfits : ∀ pair ∈ part, Fits name pair.1 pair.2) :
    valueAt? (putPart name part entries) field =
      ((inTable name part).reverse.lookup field.path).or (valueAt? entries field) := by
  cases hfield : field.table? with
  | none =>
    have hne : field.key ≠ name := fun he => Field.key_not_mem_tables hfield (he ▸ ht)
    have hother := lookup_inTable_of_ne hfits (show field.table? ≠ some name by simp [hfield])
    rw [valueAt?_of_none hfield, valueAt?_of_none hfield, hother, putPart, Assoc.lookup_set,
      if_neg hne, Option.none_or]
  | some table =>
    rw [valueAt?_of_some hfield, valueAt?_of_some hfield]
    by_cases hsame : table = name
    · subst hsame
      have hpart : partOf (putPart table part entries) table =
          Assoc.setAll (partOf entries table) part := by
        rw [partOf, putPart, Assoc.lookup_set, if_pos rfl]
        rfl
      rw [hpart, Assoc.lookup_setAll, Field.path_of_table? hfield, lookup_inTable]
    · have hother := lookup_inTable_of_ne hfits (show field.table? ≠ some name by simpa [hfield])
      rw [hother, putPart, partOf_set_of_ne hsame, Option.none_or]

theorem valueAt?_set (hfield : field.table? = none) :
    valueAt? (Assoc.set field.key value entries) other =
      ([(field.path, value)].lookup other.path).or (valueAt? entries other) := by
  cases hother : other.table? with
  | none =>
    obtain rfl : other = field := (Field.eq_includes hother).trans (Field.eq_includes hfield).symm
    simp [valueAt?_of_none hother, Assoc.lookup_set]
  | some table =>
    have hne : other.path ≠ field.path := fun he => by
      rw [Field.path_injective he, hfield] at hother
      cases hother
    have htable : table ≠ field.key := fun he =>
      Field.key_not_mem_tables hfield (he ▸ Field.mem_tables hother)
    rw [valueAt?_of_some hother, valueAt?_of_some hother, partOf_set_of_ne htable]
    simp [List.lookup_cons, beq_eq_false_iff_ne.2 hne]

-- ---------------------------------------------------------------------------
-- Sources
-- ---------------------------------------------------------------------------

def leavesOf (pair : String × Setting) : List (String × Setting) :=
  match pair.2 with
  | .table _ part => inTable pair.1 part
  | _ => [pair]

def leaves (source : List (String × Setting)) : List (String × Setting) :=
  source.flatMap leavesOf

/-- A source that says nothing but what is in fields. -/
structure IsLayer (source : List (String × Setting)) : Prop where
  tables : ∀ pair ∈ source, pair.2.isTable = true → pair.1 ∈ Field.tables
  leaves : ∀ leaf ∈ leaves source,
    ∃ field : Field, field.path = leaf.1 ∧ (field.read? leaf.2).isSome = true

theorem leavesOf_of_isTable {pair : String × Setting} (h : pair.2.isTable = false) :
    leavesOf pair = [pair] := by
  unfold leavesOf
  split
  · rename_i hvalue
    rw [hvalue] at h
    cases h
  · rfl

theorem setPath_layer (hm : IsMerged entries) {pair : String × Setting}
    (htables : pair.2.isTable = true → pair.1 ∈ Field.tables)
    (hleaves : ∀ leaf ∈ leavesOf pair,
      ∃ field : Field, field.path = leaf.1 ∧ (field.read? leaf.2).isSome = true) :
    ∃ after, (Setting.table none entries).setPath (.ofText pair.1) pair.2 = .table none after ∧
      IsMerged after ∧ ∀ field,
        valueAt? after field =
          ((leavesOf pair).reverse.lookup field.path).or (valueAt? entries field) := by
  obtain ⟨key, value⟩ := pair
  cases hvalue : value.isTable with
  | true =>
    cases value with
    | table origin part =>
      have ht := htables rfl
      have hfits : ∀ pair ∈ part, Fits key pair.1 pair.2 := fun pair hp =>
        (fits_iff ht).2 (hleaves (key ++ "." ++ pair.1, pair.2) (List.mem_map.2 ⟨pair, hp, rfl⟩))
      exact ⟨_, setPath_table hm ht hfits origin, hm.putPart ht hfits, fun field =>
        valueAt?_putPart ht hfits⟩
    | _ => cases hvalue
  | false =>
    rw [leavesOf_of_isTable hvalue] at hleaves ⊢
    obtain ⟨field, rfl, hread⟩ := hleaves _ List.mem_cons_self
    cases hfield : field.table? with
    | none =>
      exact ⟨_, setPath_value hfield hread, hm.set (.value hfield rfl hread), fun other =>
        valueAt?_set hfield⟩
    | some name =>
      have ht := Field.mem_tables hfield
      have hfits : ∀ pair ∈ [(field.key, value)], Fits name pair.1 pair.2 := by
        simpa using ⟨field, hfield, rfl, hread⟩
      refine ⟨_, setPath_field hm hfield hread, hm.putPart ht hfits, fun other => ?_⟩
      rw [valueAt?_putPart ht hfits, inTable, Field.path_of_table? hfield]
      rfl

theorem applySource_cons (root : Setting) (pair : String × Setting)
    (rest : List (String × Setting)) :
    applySource root (pair :: rest) = applySource (root.setPath (.ofText pair.1) pair.2) rest := rfl

theorem applySource_layer {source : List (String × Setting)} (h : IsLayer source)
    (hm : IsMerged entries) :
    ∃ after, applySource (.table none entries) source = .table none after ∧ IsMerged after ∧
      ∀ field, valueAt? after field =
        ((leaves source).reverse.lookup field.path).or (valueAt? entries field) := by
  induction source generalizing entries with
  | nil => exact ⟨entries, rfl, hm, fun field => rfl⟩
  | cons pair rest ih =>
    have hpair : ∀ leaf ∈ leavesOf pair, leaf ∈ leaves (pair :: rest) := fun leaf hl =>
      List.mem_append_left _ hl
    obtain ⟨next, hnext, hmnext, hvalue⟩ := setPath_layer hm (h.tables pair List.mem_cons_self)
      fun leaf hl => h.leaves leaf (hpair leaf hl)
    have hrest : IsLayer rest :=
      ⟨fun pair hp => h.tables pair (List.mem_cons_of_mem _ hp), fun leaf hl =>
        h.leaves leaf (List.mem_append_right _ hl)⟩
    obtain ⟨after, hafter, hmafter, hvalues⟩ := ih hrest hmnext
    refine ⟨after, ?_, hmafter, fun field => ?_⟩
    · rw [applySource_cons, hnext, hafter]
    · rw [hvalues, hvalue, leaves, leaves, List.flatMap_cons, List.reverse_append,
        List.lookup_append, Option.or_assoc]

def lastLeaf? (sources : List (List (String × Setting))) (field : Field) : Option Setting :=
  sources.reverse.findSome? fun source => (leaves source).reverse.lookup field.path

theorem foldl_applySource {sources : List (List (String × Setting))}
    (h : ∀ source ∈ sources, IsLayer source) (hm : IsMerged entries) :
    ∃ after, sources.foldl applySource (.table none entries) = .table none after ∧ IsMerged after ∧
      ∀ field, valueAt? after field = (lastLeaf? sources field).or (valueAt? entries field) := by
  induction sources generalizing entries with
  | nil => exact ⟨entries, rfl, hm, fun field => rfl⟩
  | cons source rest ih =>
    obtain ⟨next, hnext, hmnext, hvalue⟩ := applySource_layer (h source List.mem_cons_self) hm
    obtain ⟨after, hafter, hmafter, hvalues⟩ :=
      ih (fun source hs => h source (List.mem_cons_of_mem _ hs)) hmnext
    refine ⟨after, ?_, hmafter, fun field => ?_⟩
    · rw [List.foldl_cons, hnext]
      exact hafter
    · rw [hvalues, hvalue, lastLeaf?, lastLeaf?, List.reverse_cons, List.findSome?_append,
        List.findSome?_singleton, Option.or_assoc]

-- ---------------------------------------------------------------------------
-- The second time
-- ---------------------------------------------------------------------------

theorem applySource_merged {done rest : List (String × Setting)} (h : IsMerged (done ++ rest)) :
    applySource (.table none done) rest = .table none (done ++ rest) := by
  -- `done` is in the table already, and its keys do not come again
  induction rest generalizing done with
  | nil => simp [applySource]
  | cons pair rest ih =>
    have hdone : IsMerged done := ⟨by
      have hkeys := h.keys
      rw [List.map_append] at hkeys
      exact hkeys.of_append_left, fun pair hp => h.entry pair (List.mem_append_left _ hp)⟩
    have hkey : pair.1 ∉ done.map Prod.fst := by
      have hkeys := h.keys
      rw [List.map_append, List.map_cons] at hkeys
      exact Assoc.not_mem_of_nodup hkeys
    have hstep : (Setting.table none done).setPath (.ofText pair.1) pair.2 =
        .table none (done ++ [pair]) := by
      have hentry := h.entry pair (List.mem_append_right _ List.mem_cons_self)
      obtain ⟨key, value⟩ := pair
      cases hentry with
      | @value field _ _ hfield hfieldKey hread =>
        have hpath : field.path = key := by rw [Field.path, hfield, hfieldKey]
        rw [← hpath, setPath_value hfield hread, hfieldKey, hpath, Assoc.set_of_not_mem hkey]
      | @table _ part ht hkeys hfits =>
        have hnone : partOf done key = [] := by
          rw [partOf, Assoc.lookup_eq_none_iff.2 hkey]
          rfl
        rw [setPath_table hdone ht hfits none, putPart, hnone, Assoc.setAll_of_nodup hkeys,
          List.nil_append, Assoc.set_of_not_mem hkey]
    rw [applySource_cons, hstep, ih (by simpa using h)]
    simp

theorem mergeSources_layers {sources : List (List (String × Setting))}
    (h : ∀ source ∈ sources, IsLayer source) :
    ∃ entries, mergeSources sources = .table none entries ∧ IsMerged entries ∧
      ∀ field, valueAt? entries field = lastLeaf? sources field := by
  have hstart : IsMerged [] := ⟨List.nodup_nil, fun _ hm => nomatch hm⟩
  obtain ⟨entries, honce, hm, hvalues⟩ := foldl_applySource h hstart
  refine ⟨entries, ?_, hm, fun field => ?_⟩
  · rw [mergeSources, honce]
    exact applySource_merged hm
  · have hnone : valueAt? [] field = none := by
      unfold valueAt?
      cases field.table? <;> rfl
    rw [hvalues, hnone, Option.or_none]

end ContentTypes.Setting
