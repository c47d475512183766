import ContentTypes.Proofs.Settings.Merging

/-!
# Settings from merged fields

Fields with values of their own types become settings, whatever else there is to say of the values:
`ofSetting_merged`. A field that has no value keeps its default.
-/

namespace ContentTypes.Settings

open Setting (Fits IsMerged IsMergedEntry partOf valueAt?)

-- ---------------------------------------------------------------------------
-- Entries in any order
-- ---------------------------------------------------------------------------

section
variable {σ : Type} {keyOf : String → String} {fields : List (DecodedField σ)}
  {entries : List (String × Setting)}

def decodeField (keyOf : String → String) (fields : List (DecodedField σ)) (state : σ)
    (pair : String × Setting) : Except LoadError σ :=
  match fields.lookup pair.1 with
  | some set => set (keyOf pair.1) state pair.2
  | none => .ok state

theorem decodeEntries_cons (start : σ) (pair : String × Setting) :
    decodeEntries keyOf fields start (pair :: entries) =
      (decodeField keyOf fields start pair).bind fun next => decodeEntries keyOf fields next entries :=
  rfl

theorem decodeEntries_ok (hkeys : (entries.map Prod.fst).Nodup)
    (hstep : ∀ pair ∈ entries, ∀ state, ∃ next, decodeField keyOf fields state pair = .ok next)
    (start : σ) :
    ∃ final, decodeEntries keyOf fields start entries = .ok final ∧
      ∀ (β : Type) (view : σ → β) (name : String) (read : Setting → β),
        (∀ pair ∈ entries, ∀ state next, decodeField keyOf fields state pair = .ok next →
          view next = if pair.1 = name then read pair.2 else view state) →
        view final = ((entries.lookup name).map read).getD (view start) := by
  induction entries generalizing start with
  | nil => exact ⟨start, rfl, fun _ _ _ _ _ => rfl⟩
  | cons pair rest ih =>
    obtain ⟨key, value⟩ := pair
    rw [List.map_cons, List.nodup_cons] at hkeys
    obtain ⟨next, hnext⟩ := hstep _ List.mem_cons_self start
    obtain ⟨final, hfinal, hviews⟩ :=
      ih hkeys.2 (fun pair hp => hstep pair (List.mem_cons_of_mem _ hp)) next
    refine ⟨final, ?_, fun β view name read hview => ?_⟩
    · rw [decodeEntries_cons, hnext]
      exact hfinal
    · have hrest := hviews β view name read fun pair hp => hview pair (List.mem_cons_of_mem _ hp)
      rw [hrest, hview _ List.mem_cons_self start next hnext]
      by_cases hname : name = key
      · subst hname
        have hnone : rest.lookup name = none := Assoc.lookup_eq_none_iff.2 hkeys.1
        simp [hnone]
      · simp [List.lookup_cons, beq_eq_false_iff_ne.2 hname, Ne.symm hname]

end

-- ---------------------------------------------------------------------------
-- Tables
-- ---------------------------------------------------------------------------

variable {part entries : List (String × Setting)} {field : Field}

theorem map_getD_eq_bind_getD {α β : Type} (found : Option α) (read? : α → Option β) (absent : β) :
    (found.map fun value => (read? value).getD absent).getD absent =
      (found.bind read?).getD absent := by
  cases found <;> rfl

theorem eq_text_of_path? {value : Setting} (h : (path? value).isSome = true) :
    ∃ origin text, value = .text origin text := by
  cases value with
  | text origin text => exact ⟨origin, text, rfl⟩
  | _ => cases h

theorem eq_boolean_of_flag? {value : Setting} (h : (flag? value).isSome = true) :
    ∃ origin flag, value = .boolean origin flag := by
  cases value with
  | boolean origin flag => exact ⟨origin, flag, rfl⟩
  | _ => cases h

theorem decodeField_directory {keyOf : String → String} {pair : String × Setting}
    (hfits : Fits "paths" pair.1 pair.2) (state : Directories) :
    ∃ next, decodeField keyOf directoryFields state pair = .ok next ∧
      ∀ field : Field, field.table? = some "paths" → ∀ absent,
        value { directories := next } field =
          if pair.1 = field.key then (field.read? pair.2).getD absent
          else value { directories := state } field := by
  obtain ⟨key, value⟩ := pair
  obtain ⟨other, hother, rfl, hread⟩ := hfits
  cases other <;> first | exact absurd hother (by decide) | skip
  all_goals
    obtain ⟨origin, text, rfl⟩ := eq_text_of_path? hread
    refine ⟨_, rfl, fun field hfield absent => ?_⟩
    cases field <;> first | exact absurd hfield (by decide) | rfl

theorem decodeField_outputOption {keyOf : String → String} {pair : String × Setting}
    (hfits : Fits "output" pair.1 pair.2) (state : OutputOptions) :
    ∃ next, decodeField keyOf outputFields state pair = .ok next ∧
      ∀ field : Field, field.table? = some "output" → ∀ absent,
        value { output := next } field =
          if pair.1 = field.key then (field.read? pair.2).getD absent
          else value { output := state } field := by
  obtain ⟨key, value⟩ := pair
  obtain ⟨other, hother, rfl, hread⟩ := hfits
  cases other <;> first | exact absurd hother (by decide) | skip
  all_goals
    obtain ⟨origin, flag, rfl⟩ := eq_boolean_of_flag? hread
    refine ⟨_, rfl, fun field hfield absent => ?_⟩
    cases field <;> first | exact absurd hfield (by decide) | rfl

theorem decodePart_ok {σ : Type} {fields : List (DecodedField σ)} {name : String}
    (whole : σ → Settings)
    (hfield : ∀ {keyOf : String → String} {pair : String × Setting}, Fits name pair.1 pair.2 →
      ∀ state, ∃ next, decodeField keyOf fields state pair = .ok next ∧
        ∀ field : Field, field.table? = some name → ∀ absent,
          value (whole next) field =
            if pair.1 = field.key then (field.read? pair.2).getD absent
            else value (whole state) field)
    (hkeys : (part.map Prod.fst).Nodup) (hfits : ∀ pair ∈ part, Fits name pair.1 pair.2)
    (record : String) (start : σ) (key : String) (origin : Origin) :
    ∃ final, decodePart record fields start key (.table origin part) = .ok final ∧
      ∀ field : Field, field.table? = some name →
        value (whole final) field =
          ((part.lookup field.key).bind field.read?).getD (value (whole start) field) := by
  have hstep : ∀ pair ∈ part, ∀ state,
      ∃ next, decodeField (key ++ "." ++ ·) fields state pair = .ok next :=
    fun pair hp state => (hfield (hfits pair hp) state).imp fun _ h => h.1
  obtain ⟨final, hfinal, hviews⟩ := decodeEntries_ok hkeys hstep start
  refine ⟨final, hfinal, fun field htable => ?_⟩
  rw [← map_getD_eq_bind_getD]
  refine hviews field.Value (fun state => value (whole state) field) field.key _ ?_
  intro pair hp state next hnext
  obtain ⟨next', hnext', hvalue⟩ := hfield (hfits pair hp) state
  obtain rfl := Except.ok.inj (hnext.symm.trans hnext')
  exact hvalue field htable _

theorem decodePath_of_path? {item : Setting} {path : Path} (h : path? item = some path)
    (key : String) : decodePath key item = .ok path := by
  cases item with
  | text origin text => exact congrArg Except.ok (Option.some.inj h)
  | _ => cases h

theorem decodePaths_of_paths? {value : Setting} {paths : List Path} (h : paths? value = some paths)
    (key : String) : decodePaths key value = .ok paths := by
  cases value with
  | sequence origin items =>
    have hpairs : ∀ (pairs : List (Nat × Setting)) (paths : List Path),
        (pairs.map Prod.snd).mapM path? = some paths →
        pairs.mapM (fun pair => decodePath (itemKey key pair.1) pair.2) = .ok paths := by
      intro pairs
      induction pairs with
      | nil => exact fun paths h => congrArg Except.ok (Option.some.inj h)
      | cons pair rest ih =>
        intro paths h
        rw [List.map_cons, List.mapM_cons] at h
        obtain ⟨path, hpath, h⟩ := Option.bind_eq_some_iff.1 h
        obtain ⟨others, hothers, h⟩ := Option.bind_eq_some_iff.1 h
        obtain rfl := Option.some.inj h
        rw [List.mapM_cons, ih others hothers, decodePath_of_path? hpath]
        rfl
    refine hpairs _ paths ?_
    have hitems : (items.mapIdx fun i item => (i, item)).map Prod.snd = items := by
      rw [List.mapIdx_eq_zipIdx_map, List.map_map]
      simp [Function.comp_def]
    rw [hitems]
    exact h
  | _ => cases h

-- ---------------------------------------------------------------------------
-- All fields
-- ---------------------------------------------------------------------------

/-- What an entry says of a field, which is the entry or is in it. -/
def entryValue (field : Field) (setting : Setting) : Option Setting :=
  match field.table? with
  | none => some setting
  | some _ => setting.entries.lookup field.key

def Field.entryKey (field : Field) : String :=
  field.table?.getD field.key

theorem valueAt?_eq (entries : List (String × Setting)) (field : Field) :
    valueAt? entries field = (entries.lookup field.entryKey).bind (entryValue field) := by
  unfold valueAt? entryValue Field.entryKey
  cases field.table? with
  | none => simp
  | some name =>
    simp only [partOf, Option.getD_some]
    cases entries.lookup name <;> rfl

theorem decodeField_settings {pair : String × Setting} (hentry : IsMergedEntry pair.1 pair.2)
    (state : Settings) :
    ∃ next, decodeField id settingsFields state pair = .ok next ∧
      ∀ field : Field, next.value field =
        if pair.1 = field.entryKey then
          ((entryValue field pair.2).bind field.read?).getD (({} : Settings).value field)
        else state.value field := by
  obtain ⟨key, value⟩ := pair
  cases hentry with
  | @value field _ _ hfield hkey hread =>
    obtain rfl := Field.eq_includes hfield
    obtain rfl : "include" = key := hkey
    obtain ⟨paths, hpaths⟩ := Option.isSome_iff_exists.1 hread
    have hpaths : paths? value = some paths := hpaths
    refine ⟨{ state with includes := paths }, ?_, fun field => ?_⟩
    · change (decodePaths "include" value >>= fun paths => .ok { state with includes := paths }) = _
      rw [decodePaths_of_paths? hpaths]
      rfl
    · cases field with
      | includes => exact (congrArg (·.getD []) hpaths).symm
      | _ => rfl
  | @table _ part ht hkeys hfits =>
    rcases List.mem_cons.1 ht with rfl | ht
    · obtain ⟨directories, hpart, hvalues⟩ := decodePart_ok (fun part => { directories := part })
        decodeField_directory hkeys hfits "PathsConfig" {} "paths" none
      refine ⟨{ state with directories }, ?_, fun field => ?_⟩
      · change (decodeDirectories "paths" (.table none part) >>= fun directories =>
          .ok { state with directories }) = _
        rw [decodeDirectories, hpart]
        rfl
      · cases field with
        | api => exact hvalues .api rfl
        | components => exact hvalues .components rfl
        | output => exact hvalues .output rfl
        | _ => rfl
    · obtain rfl := List.mem_singleton.1 ht
      obtain ⟨output, hpart, hvalues⟩ := decodePart_ok (fun part => { output := part })
        decodeField_outputOption hkeys hfits "OutputConfig" {} "output" none
      refine ⟨{ state with output }, ?_, fun field => ?_⟩
      · change (decodeOutputOptions "output" (.table none part) >>= fun output =>
          .ok { state with output }) = _
        rw [decodeOutputOptions, hpart]
        rfl
      · cases field with
        | writeSupport => exact hvalues .writeSupport rfl
        | skipUnchanged => exact hvalues .skipUnchanged rfl
        | _ => rfl

theorem ofSetting_merged (h : IsMerged entries) :
    ∃ settings, ofSetting (.table none entries) = .ok settings ∧
      ∀ field, settings.value field =
        ((valueAt? entries field).bind field.read?).getD (({} : Settings).value field) := by
  have hstep : ∀ pair ∈ entries, ∀ state,
      ∃ next, decodeField id settingsFields state pair = .ok next :=
    fun pair hp state => (decodeField_settings (h.entry pair hp) state).imp fun _ h => h.1
  obtain ⟨settings, hsettings, hviews⟩ := decodeEntries_ok h.keys hstep {}
  refine ⟨settings, hsettings, fun field => ?_⟩
  rw [valueAt?_eq, Option.bind_assoc, ← map_getD_eq_bind_getD]
  refine hviews field.Value (·.value field) field.entryKey _ ?_
  intro pair hp state next hnext
  obtain ⟨next', hnext', hvalue⟩ := decodeField_settings (h.entry pair hp) state
  obtain rfl := Except.ok.inj (hnext.symm.trans hnext')
  exact hvalue field

end ContentTypes.Settings
