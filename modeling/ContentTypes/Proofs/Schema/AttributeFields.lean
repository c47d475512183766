import ContentTypes.Proofs.Assoc
import ContentTypes.Proofs.Outcome
import ContentTypes.Schema.AttributeReading

/-!
# What an attribute is read from

An attribute cannot be read exactly if it is of one of the four kinds with fields and one of these
fields holds what it may not hold (`Malformed`). Otherwise what is read depends on the names `type`
and `required` and on the fields of the kind, and on nothing else in the object, the order of its
members included: `Attribute.ofValue_fields`.
-/

namespace ContentTypes.Schema

open Json (Value ContentError)

-- ---------------------------------------------------------------------------
-- What may stand in a field
-- ---------------------------------------------------------------------------

def IsText (value : Value) : Prop := ∃ text, value = .string text

def IsFlag (value : Value) : Prop := ∃ flag, value = .boolean flag

def IsTextList (value : Value) : Prop := ∃ items, value = .array items ∧ ∀ item ∈ items, IsText item

/-- A name, or an object with the name as its only key and nothing under it. -/
inductive IsCardinality : Value → Prop
  | name (name : String) : IsCardinality (.string name)
  | keyOfNull (name : String) : IsCardinality (.object [(name, .null)])
  | keyOfEmpty (name : String) : IsCardinality (.object [(name, .object [])])

def fieldsOf (word : String) : List (String × (Value → Prop)) :=
  match word with
  | "relation" => [("relation", IsCardinality), ("target", fun value => value = .null ∨ IsText value)]
  | "component" => [("component", IsText), ("repeatable", IsFlag)]
  | "media" => [("multiple", IsFlag)]
  | "enumeration" => [("enum", IsTextList)]
  | _ => []

/-- Whether a member may stand among those of an attribute of a kind. One that is no field may. -/
def Fits (word : String) (member : String × Value) : Prop :=
  ∀ field ∈ fieldsOf word, field.1 = member.1 → field.2 member.2

theorem expectString_iff {value : Value} : (∃ text, value.expectString = .ok text) ↔ IsText value := by
  cases value <;> simp [Value.expectString, IsText]

theorem expectBoolean_iff {value : Value} :
    (∃ flag, value.expectBoolean = .ok flag) ↔ IsFlag value := by
  cases value <;> simp [Value.expectBoolean, IsFlag]

theorem expectOptional_iff {value : Value} :
    (∃ text, value.expectOptional Value.expectString = .ok text) ↔ value = .null ∨ IsText value := by
  cases value <;> simp [Value.expectOptional, Value.expectString, IsText, Except.map]

theorem expectItems_iff {value : Value} :
    (∃ texts, value.expectItems Value.expectString = .ok texts) ↔ IsTextList value := by
  cases value with
  | array items =>
    constructor
    · rintro ⟨texts, h⟩
      refine ⟨items, rfl, fun item hitem => ?_⟩
      obtain ⟨text, -, htext⟩ := exists_of_mapM_eq_ok h item hitem
      exact expectString_iff.1 ⟨text, htext⟩
    · rintro ⟨_, ⟨⟩, h⟩
      obtain ⟨texts, htexts, -⟩ := exists_mapM_eq_ok (P := fun _ => True) fun item hitem =>
        (expectString_iff.2 (h item hitem)).imp fun _ htext => ⟨htext, trivial⟩
      exact ⟨texts, htexts⟩
  | _ => simp [Value.expectItems, IsTextList]

theorem cardinality_iff {value : Value} :
    (∃ cardinality, Cardinality.read value = .ok cardinality) ↔ IsCardinality value := by
  constructor
  · rintro ⟨cardinality, h⟩
    unfold Cardinality.read at h
    split at h
    · exact .name _
    · split at h
      · exact .keyOfNull _
      · exact .keyOfEmpty _
      · cases h
    · cases h
    · cases h
  · rintro (name | name | name) <;> exact ⟨_, rfl⟩

-- ---------------------------------------------------------------------------
-- Runs through the members
-- ---------------------------------------------------------------------------

section Runs

variable {σ β : Type} {step : String → Value → σ → Option (Except ContentError σ)}
variable {start result result' : σ} {members members' : Members} {word name : String}

def stepped (step : String → Value → σ → Option (Except ContentError σ)) (member : String × Value)
    (fields : σ) : Except ContentError σ :=
  (step member.1 member.2 fields).getD (.ok fields)

theorem readFields_cons_eq_ok {member : String × Value} :
    readFields step start (member :: members) = .ok result ↔
      ∃ fields, stepped step member start = .ok fields ∧
        readFields step fields members = .ok result := by
  unfold readFields
  rw [List.foldlM_cons, bind_eq_ok]
  rfl

theorem readFields_congr {step' : String → Value → σ → Option (Except ContentError σ)}
    (h : ∀ key value fields, step key value fields = step' key value fields) :
    readFields step start members = readFields step' start members := by
  rw [show step = step' from funext₃ h]

theorem exists_readFields_iff (start : σ)
    (hstep : ∀ member fields, (∃ result, stepped step member fields = .ok result) ↔ Fits word member) :
    (∃ result, readFields step start members = .ok result) ↔ ∀ member ∈ members, Fits word member := by
  induction members generalizing start with
  | nil => exact iff_of_true ⟨start, rfl⟩ (by simp)
  | cons member members ih =>
    rw [List.forall_mem_cons, ← hstep member start]
    constructor
    · rintro ⟨result, h⟩
      obtain ⟨fields, hfields, h⟩ := readFields_cons_eq_ok.1 h
      exact ⟨⟨fields, hfields⟩, (ih fields).1 ⟨result, h⟩⟩
    · rintro ⟨⟨fields, hfields⟩, h⟩
      obtain ⟨result, h⟩ := (ih fields).2 h
      exact ⟨result, readFields_cons_eq_ok.2 ⟨fields, hfields, h⟩⟩

/-- Whether a part of what is read comes from the members called `name` alone. -/
def ComesFrom (step : String → Value → σ → Option (Except ContentError σ)) (get : σ → β)
    (name : String) (read : Value → Except ContentError β) : Prop :=
  ∀ member fields result, stepped step member fields = .ok result →
    if member.1 = name then read member.2 = .ok (get result) else get result = get fields

variable {get : σ → β} {read : Value → Except ContentError β}

theorem ComesFrom.readFields (hget : ComesFrom step get name read)
    (h : readFields step start members = .ok result) :
    (members.reverse.lookup name).elim (.ok (get start)) read = .ok (get result) := by
  induction members generalizing start with
  | nil =>
    obtain rfl := pure_eq_ok.1 h
    rfl
  | cons member members ih =>
    obtain ⟨fields, hfields, h⟩ := readFields_cons_eq_ok.1 h
    have hmember := hget _ _ _ hfields
    rw [List.reverse_cons, List.lookup_append]
    cases hlast : members.reverse.lookup name with
    | some value => simpa [hlast] using ih h
    | none =>
      have hrest : get fields = get result := by simpa [hlast] using ih h
      obtain ⟨key, value⟩ := member
      by_cases hkey : key = name
      · simpa [List.lookup_cons, hkey, ← hrest] using hmember
      · have hkey' : (name == key) = false := beq_eq_false_iff_ne.2 (Ne.symm hkey)
        simpa [List.lookup_cons, hkey, hkey', ← hrest, eq_comm] using hmember

/-- Lists of members, each with different names, that have the same values under the fields of a kind. -/
structure SameFields (word : String) (members members' : Members) : Prop where
  nodup : (members.map Prod.fst).Nodup
  nodup' : (members'.map Prod.fst).Nodup
  lookup : ∀ name ∈ (fieldsOf word).map Prod.fst, members'.lookup name = members.lookup name

theorem lookup_reverse_of_nodup (h : (members.map Prod.fst).Nodup) :
    members.reverse.lookup name = members.lookup name := by
  have hreverse : (members.reverse.map Prod.fst).Nodup := by
    rwa [List.map_reverse, List.nodup_reverse]
  refine Option.ext fun value => ?_
  rw [← Assoc.mem_iff_lookup hreverse, List.mem_reverse, Assoc.mem_iff_lookup h]

theorem SameFields.fits (hsame : SameFields word members members')
    (h : ∀ member ∈ members, Fits word member) : ∀ member ∈ members', Fits word member := by
  rintro ⟨name, value⟩ hmember field hfield rfl
  have hlookup := (Assoc.mem_iff_lookup hsame.nodup').1 hmember
  rw [hsame.lookup _ (List.mem_map_of_mem hfield)] at hlookup
  exact h _ ((Assoc.mem_iff_lookup hsame.nodup).2 hlookup) field hfield rfl

theorem SameFields.get_eq (hsame : SameFields word members members')
    (hfield : name ∈ (fieldsOf word).map Prod.fst) (hget : ComesFrom step get name read)
    (h : readFields step start members = .ok result)
    (h' : readFields step start members' = .ok result') : get result' = get result := by
  have hresult := hget.readFields h
  have hresult' := hget.readFields h'
  rw [lookup_reverse_of_nodup hsame.nodup] at hresult
  rw [lookup_reverse_of_nodup hsame.nodup', hsame.lookup _ hfield, hresult] at hresult'
  exact (Except.ok.inj hresult').symm

end Runs

-- ---------------------------------------------------------------------------
-- The steps of the kinds
-- ---------------------------------------------------------------------------

variable {members members' : Members} {kind : AttributeKind} {member : String × Value}

def relationStep (key : String) (value : Value) (fields : RelationFields) :
    Option (Except ContentError RelationFields) :=
  match key with
  | "relation" => some do pure { fields with cardinality := ← Cardinality.read value }
  | "target" => some do pure { fields with target := ← value.expectOptional Value.expectString }
  | _ => none

def componentStep (key : String) (value : Value) (fields : ComponentFields) :
    Option (Except ContentError ComponentFields) :=
  match key with
  | "component" => some do pure { fields with uid? := some (← value.expectString) }
  | "repeatable" => some do pure { fields with repeatable := ← value.expectBoolean }
  | _ => none

def onlyStep {β : Type} (name : String) (read : Value → Except ContentError β) (key : String)
    (value : Value) (_ : β) : Option (Except ContentError β) :=
  if key = name then some (read value) else none

theorem readRelation_eq_ok : readRelation members = .ok kind ↔
    ∃ fields, readFields relationStep {} members = .ok fields ∧
      .relation fields.cardinality fields.target = kind := by
  unfold readRelation
  simp only [bind_eq_ok, pure_eq_ok]
  rfl

theorem readComponent_eq_ok : readComponent members = .ok kind ↔
    ∃ fields uid, readFields componentStep {} members = .ok fields ∧ fields.uid? = some uid ∧
      .component uid fields.repeatable = kind := by
  unfold readComponent
  rw [bind_eq_ok]
  refine exists_congr fun fields => ?_
  cases fields.uid? with
  | none => simp [throw, throwThe, MonadExceptOf.throw]
  | some uid =>
    simp only [pure_eq_ok, Option.some.injEq, exists_eq_left', exists_and_left]
    rfl

theorem readMedia_eq_ok : readMedia members = .ok kind ↔
    ∃ multiple, readFields (onlyStep "multiple" Value.expectBoolean) false members = .ok multiple ∧
      .media multiple = kind := by
  unfold readMedia
  simp only [bind_eq_ok, pure_eq_ok]
  refine exists_congr fun multiple => ?_
  rw [readFields_congr]
  intro key value _
  unfold onlyStep
  split <;> simp_all

theorem readEnumeration_eq_ok : readEnumeration members = .ok kind ↔
    ∃ options,
      readFields (onlyStep "enum" (Value.expectItems Value.expectString)) [] members = .ok options ∧
        .enumeration options = kind := by
  unfold readEnumeration
  simp only [bind_eq_ok, pure_eq_ok]
  refine exists_congr fun options => ?_
  rw [readFields_congr]
  intro key value _
  unfold onlyStep
  split <;> simp_all

theorem relationStep_eq_ok {fields result : RelationFields} :
    stepped relationStep member fields = .ok result ↔
      (member.1 = "relation" ∧ ∃ cardinality, Cardinality.read member.2 = .ok cardinality ∧
        { fields with cardinality } = result) ∨
      (member.1 = "target" ∧ ∃ target, member.2.expectOptional Value.expectString = .ok target ∧
        { fields with target } = result) ∨
      (member.1 ≠ "relation" ∧ member.1 ≠ "target" ∧ fields = result) := by
  obtain ⟨key, value⟩ := member
  unfold stepped relationStep
  dsimp only
  split
  · simp [map_eq_ok]
  · simp [map_eq_ok]
  · simp_all

theorem componentStep_eq_ok {fields result : ComponentFields} :
    stepped componentStep member fields = .ok result ↔
      (member.1 = "component" ∧ ∃ uid, member.2.expectString = .ok uid ∧
        { fields with uid? := some uid } = result) ∨
      (member.1 = "repeatable" ∧ ∃ repeatable, member.2.expectBoolean = .ok repeatable ∧
        { fields with repeatable } = result) ∨
      (member.1 ≠ "component" ∧ member.1 ≠ "repeatable" ∧ fields = result) := by
  obtain ⟨key, value⟩ := member
  unfold stepped componentStep
  dsimp only
  split
  · simp [map_eq_ok]
  · simp only [map_eq_ok, Option.getD_some, bind_pure_comp]
    simp
  · simp_all

theorem onlyStep_eq_ok {β : Type} {name : String} {read : Value → Except ContentError β}
    {field result : β} : stepped (onlyStep name read) member field = .ok result ↔
      if member.1 = name then read member.2 = .ok result else field = result := by
  unfold stepped onlyStep
  split <;> simp

theorem relationStep_iff (member : String × Value) (fields : RelationFields) :
    (∃ result, stepped relationStep member fields = .ok result) ↔ Fits "relation" member := by
  obtain ⟨key, value⟩ := member
  simp only [relationStep_eq_ok, Fits, fieldsOf, List.forall_mem_cons, ← cardinality_iff,
    ← expectOptional_iff]
  by_cases hrelation : key = "relation" <;> by_cases htarget : key = "target" <;>
    simp_all [eq_comm]

theorem componentStep_iff (member : String × Value) (fields : ComponentFields) :
    (∃ result, stepped componentStep member fields = .ok result) ↔ Fits "component" member := by
  obtain ⟨key, value⟩ := member
  simp only [componentStep_eq_ok, Fits, fieldsOf, List.forall_mem_cons, ← expectString_iff,
    ← expectBoolean_iff]
  by_cases hcomponent : key = "component" <;> by_cases hrepeatable : key = "repeatable" <;>
    simp_all [eq_comm, -Bool.exists_bool]

theorem onlyStep_iff {β : Type} (word : String) {name : String} {shape : Value → Prop}
    {read : Value → Except ContentError β} (hfields : fieldsOf word = [(name, shape)])
    (hread : ∀ value, (∃ field, read value = .ok field) ↔ shape value) (member : String × Value)
    (field : β) :
    (∃ result, stepped (onlyStep name read) member field = .ok result) ↔ Fits word member := by
  simp only [onlyStep_eq_ok, Fits, hfields, List.forall_mem_singleton, ← hread]
  by_cases hname : member.1 = name <;> simp [hname, eq_comm (a := name)]

theorem comesFrom_cardinality :
    ComesFrom relationStep (·.cardinality) "relation" Cardinality.read := by
  intro member fields result h
  rcases relationStep_eq_ok.1 h with ⟨hkey, _, hread, rfl⟩ | ⟨hkey, _, -, rfl⟩ | ⟨hkey, -, rfl⟩ <;>
    simp_all

theorem comesFrom_target :
    ComesFrom relationStep (·.target) "target" (Value.expectOptional Value.expectString) := by
  intro member fields result h
  rcases relationStep_eq_ok.1 h with ⟨hkey, _, -, rfl⟩ | ⟨hkey, _, hread, rfl⟩ | ⟨-, hkey, rfl⟩ <;>
    simp_all

theorem comesFrom_uid :
    ComesFrom componentStep (·.uid?) "component" fun value => some <$> value.expectString := by
  intro member fields result h
  rcases componentStep_eq_ok.1 h with ⟨hkey, _, hread, rfl⟩ | ⟨hkey, _, -, rfl⟩ | ⟨hkey, -, rfl⟩ <;>
    simp_all

theorem comesFrom_repeatable :
    ComesFrom componentStep (·.repeatable) "repeatable" Value.expectBoolean := by
  intro member fields result h
  rcases componentStep_eq_ok.1 h with ⟨hkey, _, -, rfl⟩ | ⟨hkey, _, hread, rfl⟩ | ⟨-, hkey, rfl⟩ <;>
    simp_all

theorem comesFrom_only {β : Type} {name : String} {read : Value → Except ContentError β} :
    ComesFrom (onlyStep name read) id name read := by
  intro member fields result h
  have h := onlyStep_eq_ok.1 h
  split at h
  · simp_all
  · simp_all

-- ---------------------------------------------------------------------------
-- Kinds
-- ---------------------------------------------------------------------------

theorem isSome_uid_iff {fields : ComponentFields}
    (h : readFields componentStep {} members = .ok fields) :
    fields.uid?.isSome ↔ "component" ∈ members.map Prod.fst := by
  have huid := comesFrom_uid.readFields h
  rw [← List.mem_reverse, ← List.map_reverse, ← not_iff_not, ← Assoc.lookup_eq_none_iff]
  cases hlast : members.reverse.lookup "component" with
  | none =>
    have hnone : fields.uid? = none := by simpa [hlast, eq_comm] using huid
    simp [hnone]
  | some value =>
    obtain ⟨uid, -, huid⟩ := map_eq_ok.1 (by simpa [hlast] using huid)
    simp [← huid]

theorem fieldsOf_eq_nil {word : String} (hrelation : word ≠ "relation") (hcomponent : word ≠ "component")
    (hmedia : word ≠ "media") (henumeration : word ≠ "enumeration") : fieldsOf word = [] := by
  unfold fieldsOf
  split <;> simp_all

theorem exists_kind_iff {word : String} : (∃ kind, AttributeKind.read word members = .ok kind) ↔
    (∀ member ∈ members, Fits word member) ∧
      (word = "component" → "component" ∈ members.map Prod.fst) := by
  unfold AttributeKind.read
  split
  · rw [← exists_readFields_iff {} relationStep_iff]
    simp [readRelation_eq_ok]
  · rw [← exists_readFields_iff {} componentStep_iff]
    simp only [readComponent_eq_ok, true_imp_iff]
    constructor
    · rintro ⟨_, fields, uid, h, huid, -⟩
      exact ⟨⟨fields, h⟩, (isSome_uid_iff h).1 (by simp [huid])⟩
    · rintro ⟨⟨fields, h⟩, hmem⟩
      obtain ⟨uid, huid⟩ := Option.isSome_iff_exists.1 ((isSome_uid_iff h).2 hmem)
      exact ⟨_, fields, uid, h, huid, rfl⟩
  · rw [← exists_readFields_iff false
      (onlyStep_iff "media" rfl fun _ => expectBoolean_iff)]
    simp [readMedia_eq_ok, -Bool.exists_bool]
  · rw [← exists_readFields_iff []
      (onlyStep_iff "enumeration" rfl fun _ => expectItems_iff)]
    simp [readEnumeration_eq_ok]
  · rename_i hrelation hcomponent hmedia henumeration
    simp_all [Fits, fieldsOf_eq_nil hrelation hcomponent hmedia henumeration]

theorem read_eq_ok_of_sameFields {word : String} (hsame : SameFields word members members')
    (h : AttributeKind.read word members = .ok kind) :
    AttributeKind.read word members' = .ok kind := by
  have hread : ∃ kind', AttributeKind.read word members' = .ok kind' := by
    obtain ⟨hfits, hcomponent⟩ := exists_kind_iff.1 ⟨kind, h⟩
    refine exists_kind_iff.2 ⟨hsame.fits hfits, ?_⟩
    rintro rfl
    have hlookup := hsame.lookup "component" (by simp [fieldsOf])
    have hmem := hcomponent rfl
    rw [← not_not (a := _ ∈ _), ← Assoc.lookup_eq_none_iff] at hmem ⊢
    rwa [hlookup]
  obtain ⟨kind', h'⟩ := hread
  -- both are read, so it remains that the same is read: word by word, as each has its own fields
  suffices kind' = kind by rw [h', this]
  unfold AttributeKind.read at h h'
  split at h
  · obtain ⟨fields, hfields, rfl⟩ := readRelation_eq_ok.1 h
    obtain ⟨fields', hfields', rfl⟩ := readRelation_eq_ok.1 h'
    have hcardinality := hsame.get_eq (by simp [fieldsOf]) comesFrom_cardinality hfields hfields'
    have htarget := hsame.get_eq (by simp [fieldsOf]) comesFrom_target hfields hfields'
    simp_all
  · obtain ⟨fields, uid, hfields, huid, rfl⟩ := readComponent_eq_ok.1 h
    obtain ⟨fields', uid', hfields', huid', rfl⟩ := readComponent_eq_ok.1 h'
    have huids := hsame.get_eq (by simp [fieldsOf]) comesFrom_uid hfields hfields'
    have hrepeatable := hsame.get_eq (by simp [fieldsOf]) comesFrom_repeatable hfields hfields'
    simp_all
  · obtain ⟨multiple, hfields, rfl⟩ := readMedia_eq_ok.1 h
    obtain ⟨multiple', hfields', rfl⟩ := readMedia_eq_ok.1 h'
    have hmultiple := hsame.get_eq (by simp [fieldsOf]) comesFrom_only hfields hfields'
    simp_all
  · obtain ⟨options, hfields, rfl⟩ := readEnumeration_eq_ok.1 h
    obtain ⟨options', hfields', rfl⟩ := readEnumeration_eq_ok.1 h'
    have hoptions := hsame.get_eq (by simp [fieldsOf]) comesFrom_only hfields hfields'
    simp_all
  · simp_all

-- ---------------------------------------------------------------------------
-- Attributes
-- ---------------------------------------------------------------------------

/-- What cannot be read as an attribute. -/
inductive Malformed : Value → Prop
  | field {members : Members} {word name : String} {shape : Value → Prop} {value : Value}
    (kind : members.lookup "type" = some (.string word)) (field : (name, shape) ∈ fieldsOf word)
    (member : (name, value) ∈ members) (bad : ¬shape value) : Malformed (.object members)
  | noComponent {members : Members} (kind : members.lookup "type" = some (.string "component"))
    (absent : "component" ∉ members.map Prod.fst) : Malformed (.object members)

def relevantNames (members : Members) : List String :=
  "type" :: "required" ::
    match members.lookup "type" with
    | some (.string word) => (fieldsOf word).map Prod.fst
    | _ => []

theorem malformed_iff {word : String} (h : members.lookup "type" = some (.string word)) :
    Malformed (.object members) ↔ ¬((∀ member ∈ members, Fits word member) ∧
      (word = "component" → "component" ∈ members.map Prod.fst)) := by
  constructor
  · rintro (⟨hkind, hfield, hmember, hbad⟩ | ⟨hkind, habsent⟩) ⟨hfits, hcomponent⟩
    · obtain rfl : _ = word := by simpa [h, eq_comm] using hkind
      exact hbad (hfits _ hmember _ hfield rfl)
    · obtain rfl : "component" = word := by simpa [h, eq_comm] using hkind
      exact habsent (hcomponent rfl)
  · intro hnot
    by_cases hfits : ∀ member ∈ members, Fits word member
    · obtain ⟨rfl, habsent⟩ := Classical.not_imp.1 (not_and.1 hnot hfits)
      exact .noComponent h habsent
    · simp only [Fits, not_forall] at hfits
      obtain ⟨⟨_, value⟩, hmember, ⟨name, shape⟩, hfield, rfl, hbad⟩ := hfits
      exact .field h hfield hmember hbad

theorem ofValue_eq_ok_of_kind {word : String} {a : Attribute}
    (h : members.lookup "type" = some (.string word)) :
    Attribute.ofValue (.object members) = .ok a ↔
      ∃ kind, AttributeKind.read word members = .ok kind ∧
        ⟨kind, requiredFlag? (.object members)⟩ = a := by
  simp only [Attribute.ofValue, h, bind_eq_ok, pure_eq_ok]

theorem ofValue_of_not_kind (h : ∀ word, members.lookup "type" ≠ some (.string word)) :
    Attribute.ofValue (.object members) = .ok ⟨.unrecognized, requiredFlag? (.object members)⟩ := by
  unfold Attribute.ofValue
  dsimp only
  split
  · rename_i word hword
    exact absurd hword (h word)
  · rfl

theorem exists_ofValue_iff (value : Value) :
    (∃ a, Attribute.ofValue value = .ok a) ↔ ¬Malformed value := by
  cases value with
  | object members =>
    by_cases hkind : ∃ word, members.lookup "type" = some (.string word)
    · obtain ⟨word, hword⟩ := hkind
      rw [malformed_iff hword, not_not, ← exists_kind_iff]
      simp only [ofValue_eq_ok_of_kind hword]
      exact ⟨fun ⟨_, kind, h, _⟩ => ⟨kind, h⟩, fun ⟨kind, h⟩ => ⟨_, kind, h, rfl⟩⟩
    · have hnone := not_exists.1 hkind
      refine iff_of_true ⟨_, ofValue_of_not_kind hnone⟩ ?_
      rintro (⟨hword, -, -, -⟩ | ⟨hword, -⟩) <;> exact hnone _ hword
  | _ => exact iff_of_true ⟨_, rfl⟩ (by rintro ⟨⟩)

theorem requiredFlag?_congr (h : members'.lookup "required" = members.lookup "required") :
    requiredFlag? (.object members') = requiredFlag? (.object members) := by
  simp [requiredFlag?, Value.member?, h]

theorem ofValue_eq_ok_of_lookup {a : Attribute} (hnodup : (members.map Prod.fst).Nodup)
    (hnodup' : (members'.map Prod.fst).Nodup)
    (hsame : ∀ name ∈ relevantNames members, members'.lookup name = members.lookup name)
    (h : Attribute.ofValue (.object members) = .ok a) :
    Attribute.ofValue (.object members') = .ok a := by
  have htype := hsame "type" (by simp [relevantNames])
  have hrequired := requiredFlag?_congr (hsame "required" (by simp [relevantNames]))
  by_cases hkind : ∃ word, members.lookup "type" = some (.string word)
  · obtain ⟨word, hword⟩ := hkind
    have hfields : SameFields word members members' := by
      refine ⟨hnodup, hnodup', fun name hname => hsame name ?_⟩
      simp only [relevantNames, hword, List.mem_cons]
      exact .inr (.inr hname)
    obtain ⟨kind, hread, rfl⟩ := (ofValue_eq_ok_of_kind hword).1 h
    refine (ofValue_eq_ok_of_kind (htype.trans hword)).2 ⟨kind, ?_, by rw [hrequired]⟩
    exact read_eq_ok_of_sameFields hfields hread
  · have hnone := not_exists.1 hkind
    rw [ofValue_of_not_kind (by simpa [htype] using hnone), hrequired, ← h, ofValue_of_not_kind hnone]

theorem lookup_perm {name : String} (hperm : members'.Perm members)
    (hnodup : (members.map Prod.fst).Nodup) : members'.lookup name = members.lookup name := by
  have hnodup' : (members'.map Prod.fst).Nodup := (hperm.map Prod.fst).nodup_iff.2 hnodup
  refine Option.ext fun value => ?_
  rw [← Assoc.mem_iff_lookup hnodup', hperm.mem_iff, Assoc.mem_iff_lookup hnodup]

/-- A value cannot be read as an attribute exactly if it is malformed. What is read from an object stays
the same when its members change places, and when any of them change, come or go that an attribute of
this kind is not read for. -/
theorem Attribute.ofValue_fields (value : Value) :
    ((∃ error, Attribute.ofValue value = .error error) ↔ Malformed value) ∧
      ∀ a members, value = .object members → (members.map Prod.fst).Nodup →
        Attribute.ofValue value = .ok a →
        (∀ members' : Members, members'.Perm members → Attribute.ofValue (.object members') = .ok a) ∧
        ∀ members' : Members, (members'.map Prod.fst).Nodup →
          (∀ name ∈ relevantNames members, members'.lookup name = members.lookup name) →
          Attribute.ofValue (.object members') = .ok a := by
  refine ⟨?_, ?_⟩
  · have hread := exists_ofValue_iff value
    cases hvalue : Attribute.ofValue value <;> simp_all
  · rintro a members rfl hnodup h
    constructor
    · intro members' hperm
      have hnodup' : (members'.map Prod.fst).Nodup := (hperm.map Prod.fst).nodup_iff.2 hnodup
      exact ofValue_eq_ok_of_lookup hnodup hnodup' (fun _ _ => lookup_perm hperm hnodup) h
    · intro members' hnodup' hsame
      exact ofValue_eq_ok_of_lookup hnodup hnodup' hsame h

def taggedMembers : Members :=
  [("mappedBy", .string "article"), ("type", .string "relation"), ("target", .string "api::tag.tag"),
    ("relation", .object [("oneToMany", .null)])]

/-- A relation that also names what only the other side is read for is the same attribute backwards and
without that member, and none with another cardinality. -/
theorem ofValue_fields_of_tagged :
    Attribute.ofValue (.object taggedMembers) = .ok ⟨.relation .oneToMany "api::tag.tag", none⟩ ∧
      Attribute.ofValue (.object taggedMembers.reverse) =
        .ok ⟨.relation .oneToMany "api::tag.tag", none⟩ ∧
      Attribute.ofValue (.object taggedMembers.tail) =
        .ok ⟨.relation .oneToMany "api::tag.tag", none⟩ ∧
      ∃ error, Attribute.ofValue (.object (taggedMembers.tail ++ [("relation", .null)])) =
        .error error := by
  have hread : Attribute.ofValue (.object taggedMembers) =
    .ok ⟨.relation .oneToMany "api::tag.tag", none⟩ := rfl
  obtain ⟨hperm, hlookup⟩ := (Attribute.ofValue_fields _).2 _ taggedMembers rfl (by decide) hread
  refine ⟨hread, hperm _ (List.reverse_perm _), hlookup _ (by decide) ?_, ?_⟩
  · simp [relevantNames, taggedMembers, fieldsOf, List.lookup_cons]
  · have hbad : ¬IsCardinality .null := by rintro ⟨⟩
    have hmem : ("relation", Value.null) ∈ taggedMembers.tail ++ [("relation", .null)] := by simp
    exact (Attribute.ofValue_fields _).1.2 (.field rfl List.mem_cons_self hmem hbad)

end ContentTypes.Schema
