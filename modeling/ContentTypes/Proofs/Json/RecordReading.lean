import ContentTypes.Proofs.Json.Record
import ContentTypes.Proofs.Json.Skipping
import Mathlib.Data.List.Nodup

/-!
# Reading records

A record is read from the fields that a tree gives to it, whether the tree is an object or an array:
`Record.Stores.read`. An error in the content of a field is that of the record:
`Record.Stores.read_fails`.
-/

namespace ContentTypes.Json

variable {text rest : List Char}

-- ---------------------------------------------------------------------------
-- What fields hold
-- ---------------------------------------------------------------------------

namespace Tree

def text? : Tree → Option String
  | .string parts => textOf? parts
  | _ => none

def optional? {α : Type} (read? : Tree → Option α) : Tree → Option (Option α)
  | .null => some none
  | tree => (read? tree).map some

end Tree

theorem treeText_null_iff :
    TreeText text .null rest ↔ skipBlanks text = 'n' :: 'u' :: 'l' :: 'l' :: rest := by
  rw [treeText_iff]
  constructor
  · rintro (h | ⟨_, _, _, ⟨⟩, -⟩ | ⟨_, _, _, ⟨⟩, -⟩)
    generalize skipBlanks text = text₁ at h
    cases h
    rfl
  · intro h
    rw [h]
    exact .inl .null

theorem treeText_string_iff {parts : List StringPart} :
    TreeText text (.string parts) rest ↔
      ∃ text₁, skipBlanks text = '"' :: text₁ ∧ StringText text₁ parts rest := by
  rw [treeText_iff]
  constructor
  · rintro (h | ⟨_, _, _, ⟨⟩, -⟩ | ⟨_, _, _, ⟨⟩, -⟩)
    generalize skipBlanks text = text₁ at h
    cases h with
    | string hparts => exact ⟨_, rfl, hparts⟩
  · rintro ⟨text₁, h, hparts⟩
    rw [h]
    exact .inl (.string hparts)

@[simp] theorem mismatch_ne_ok {α : Type} {wanted : Wanted} {result : α} :
    mismatch wanted text ≠ .ok result := by
  intro h
  unfold mismatch at h
  split at h
  · cases h
  · cases h
  · obtain ⟨_, -, h⟩ := bind_eq_ok.1 h
    cases h

theorem ReadsTree.placed {α : Type} {limit : Nat} {read : List Char → Except Fault (α × List Char)}
    {value? : Tree → Option α} (hread : ReadsTree limit read value?) :
    ReadsTree limit (fun text => placed (read text)) value? := by
  intro text rest value hlimit
  rw [placed_eq_ok, hread hlimit]

theorem readsTree_readStringOnly {limit : Nat} :
    ReadsTree limit (fun text => readStringOnly (skipBlanks text)) Tree.text? := by
  intro text rest value _
  dsimp only
  constructor
  · intro h
    unfold readStringOnly at h
    split at h
    · rename_i text₁ hskip
      obtain ⟨parts, hparts, htext⟩ := readString_eq_ok.1 h
      exact ⟨.string parts, treeText_string_iff.2 ⟨text₁, hskip, hparts⟩, htext⟩
    · exact absurd h mismatch_ne_ok
  · rintro ⟨tree, htree, hvalue⟩
    cases tree with
    | string parts =>
      obtain ⟨text₁, hskip, hparts⟩ := treeText_string_iff.1 htree
      rw [hskip]
      exact readString_eq_ok.2 ⟨parts, hparts, hvalue⟩
    | null | boolean | number | array | object => cases hvalue

theorem TreeText.eq_null {tree : Tree} {text₁ : List Char} (h : TreeText text tree rest)
    (hskip : skipBlanks text = 'n' :: text₁) : tree = .null := by
  rw [treeText_iff, hskip] at h
  rcases h with h | ⟨_, _, ⟨⟩, -⟩ | ⟨_, _, ⟨⟩, -⟩
  cases h with
  | null => rfl
  | number hnumber =>
    obtain ⟨_, _, ⟨⟩, hc⟩ := hnumber.head
    exact absurd hc (by decide)

theorem Tree.optional?_of_ne_null {α : Type} {read? : Tree → Option α} {tree : Tree}
    (h : tree ≠ .null) : optional? read? tree = (read? tree).map some := by
  cases tree with
  | null => exact absurd rfl h
  | boolean | number | string | array | object => rfl

theorem Tree.exists_optional?_iff {α : Type} {read? : Tree → Option α} {tree : Tree} :
    (∃ value, optional? read? tree = some value) ↔
      tree = .null ∨ ∃ value, read? tree = some value := by
  by_cases h : tree = .null
  · subst h
    simp [optional?]
  · simp [optional?_of_ne_null h, h]

theorem ReadsTree.readOptional {α : Type} {limit : Nat}
    {read : List Char → Except Fault (α × List Char)} {read? : Tree → Option α}
    (hread : ReadsTree limit (fun text => read (skipBlanks text)) read?) :
    ReadsTree limit (readOptional read) (Tree.optional? read?) := by
  intro text rest value hlimit
  unfold Json.readOptional
  split
  · rename_i text₁ hskip
    simp only [bind_eq_ok, pure_eq_ok, readWord_eq_ok, Prod.mk.injEq]
    constructor
    · rintro ⟨_, rfl, rfl, rfl⟩
      exact ⟨.null, treeText_null_iff.2 hskip, rfl⟩
    · rintro ⟨tree, htree, hvalue⟩
      cases htree.eq_null hskip
      cases hvalue
      cases hskip.symm.trans (treeText_null_iff.1 htree)
      exact ⟨rest, rfl, rfl, rfl⟩
  · rename_i hskip
    have hne : ∀ {tree}, TreeText text tree rest → tree ≠ .null := by
      rintro _ htree rfl
      exact hskip _ (treeText_null_iff.1 htree)
    simp only [bind_eq_ok, pure_eq_ok, Prod.exists, Prod.mk.injEq]
    constructor
    · rintro ⟨found, _, h, rfl, rfl⟩
      obtain ⟨tree, htree, hfound⟩ := (hread hlimit).1 h
      exact ⟨tree, htree, by rw [Tree.optional?_of_ne_null (hne htree), hfound, Option.map_some]⟩
    · rintro ⟨tree, htree, hvalue⟩
      rw [Tree.optional?_of_ne_null (hne htree), Option.map_eq_some_iff] at hvalue
      obtain ⟨found, hfound, rfl⟩ := hvalue
      exact ⟨found, rest, (hread hlimit).2 ⟨tree, htree, hfound⟩, rfl, rfl⟩

-- ---------------------------------------------------------------------------
-- Fields
-- ---------------------------------------------------------------------------

/-- What a tree gives to a record whose fields have these names: an object gives its members, and the
items of an array go to the names in order. -/
def Tree.fields? (names : List String) : Tree → Option (List (String × Tree))
  | .object members => decode? some members
  | .array items => if items.length ≤ names.length then some (names.zip items) else none
  | _ => none

section

variable {σ : Type} {record : Record σ} {limit : Nat} {store : String → σ → Tree → Option σ}

def Record.run? (record : Record σ) (store : String → σ → Tree → Option σ) :
    σ → List (String × Tree) → Option σ
  | state, [] => some state
  | state, (name, tree) :: fields =>
    match record.fields.find? (·.name = name) with
    | some field =>
      if field.isSet state then none
      else (store name state tree).bind fun state => record.run? store state fields
    | none => record.run? store state fields

/-- Whether `store` is what the fields of a record do with the trees that they read, on a text with
fewer than `limit` characters: each field sets itself and no other. -/
structure Record.Stores (record : Record σ) (limit : Nat) (store : String → σ → Tree → Option σ) :
    Prop where
  nodup : (record.fields.map (·.name)).Nodup
  reads : ∀ field ∈ record.fields, ∀ state,
    ReadsTree limit (field.read state) (store field.name state)
  sets : ∀ field ∈ record.fields, ∀ other ∈ record.fields, ∀ ⦃state state' : σ⦄ ⦃tree : Tree⦄,
    store field.name state tree = some state' →
      (other.isSet state' = true ↔ other.name = field.name ∨ other.isSet state = true)

def Record.Complete (record : Record σ) (state : σ) : Prop :=
  ∀ field ∈ record.fields, field.required = true → field.isSet state = true

instance (record : Record σ) (state : σ) : Decidable (record.Complete state) :=
  inferInstanceAs (Decidable (∀ field ∈ record.fields, _))

def Record.ofTree? (record : Record σ) (store : String → σ → Tree → Option σ) (start : σ)
    (room : Nat) (tree : Tree) : Option σ :=
  if room = 0 then none
  else do
    let state ← record.run? store start (← tree.fields? (record.fields.map (·.name)))
    if record.Complete state then some state else none

-- ---------------------------------------------------------------------------
-- Members
-- ---------------------------------------------------------------------------

variable {isFirst : Bool} {fuel : Nat} {state state' : σ} {text₁ : List Char}

namespace Record

theorem find?_missing_eq_none :
    (record.fields.find? fun field => field.required && !field.isSet state) = none ↔
      record.Complete state := by
  simp [Complete]

theorem readMembers_field {key : List StringPart} {name : String} {field : Field σ}
    (hlabel : LabelText isFirst text key text₁) (hkey : textOf? key = some name)
    (hfield : record.fields.find? (·.name = name) = some field) (hset : field.isSet state = false) :
    record.readMembers limit isFirst state (fuel + 1) text =
      (field.read state text₁ >>= fun (state, text) =>
        record.readMembers limit false state fuel text) := by
  obtain ⟨_, _, hnext, hname, hcolon⟩ := labelText_iff.2 ⟨key, hlabel, hkey⟩
  simp only [readMembers, hnext, placed_ok, ok_bind, if_true, hname, hfield, hset, hcolon]
  rfl

theorem readMembers_other {key : List StringPart} {name : String}
    (hlabel : LabelText isFirst text key text₁) (hkey : textOf? key = some name)
    (hfield : record.fields.find? (·.name = name) = none) :
    record.readMembers limit isFirst state (fuel + 1) text =
      (placed (skipValue limit text₁) >>= fun text =>
        record.readMembers limit false state fuel text) := by
  obtain ⟨_, _, hnext, hname, hcolon⟩ := labelText_iff.2 ⟨key, hlabel, hkey⟩
  simp only [readMembers, hnext, placed_ok, ok_bind, if_true, hname, hfield, hcolon]

theorem readMembers_end (hclose : AfterBlanks text ('\x7d' :: rest))
    (hcomplete : record.Complete state) :
    record.readMembers limit isFirst state (fuel + 1) text = .ok (state, '\x7d' :: rest) := by
  simp only [readMembers, nextKey_false.2 ⟨rest, hclose, rfl⟩, placed_ok, ok_bind,
    Bool.false_eq_true, if_false, find?_missing_eq_none.2 hcomplete]
  rfl

theorem run?_field {name : String} {field : Field σ} {tree : Tree} {fields : List (String × Tree)}
    (hfield : record.fields.find? (·.name = name) = some field) :
    record.run? store state ((name, tree) :: fields) = some state' ↔
      field.isSet state = false ∧ ∃ state₁, store name state tree = some state₁ ∧
        record.run? store state₁ fields = some state' := by
  rw [run?, hfield]
  cases hset : field.isSet state <;> simp [hset, Option.bind_eq_some_iff]

theorem run?_other {name : String} {tree : Tree} {fields : List (String × Tree)}
    (hfield : record.fields.find? (·.name = name) = none) :
    record.run? store state ((name, tree) :: fields) = record.run? store state fields := by
  rw [run?, hfield]

theorem Stores.field {name : String} {field : Field σ} (h : record.Stores limit store)
    (hfield : record.fields.find? (·.name = name) = some field) (state : σ) :
    ReadsTree limit (field.read state) (store name state) := by
  have hname : field.name = name := by simpa using List.find?_some hfield
  exact hname ▸ h.reads field (List.mem_of_find?_eq_some hfield) state

theorem Stores.of_readMembers (h : record.Stores limit store) (hlimit : text.length < limit)
    {text' : List Char}
    (hread : record.readMembers limit isFirst state fuel text = .ok (state', text')) :
    ∃ members fields rest, MembersText isFirst text members rest ∧ text' = '\x7d' :: rest ∧
      decode? some members = some fields ∧ record.run? store state fields = some state' ∧
        record.Complete state' := by
  induction fuel generalizing isFirst state text with
  | zero => cases hread
  | succ fuel ih =>
    unfold readMembers at hread
    obtain ⟨⟨more, text₁⟩, hnext, hread⟩ := bind_eq_ok.1 hread
    rw [placed_eq_ok] at hnext
    cases more with
    | false =>
      obtain ⟨rest, hclose, rfl⟩ := nextKey_false.1 hnext
      simp only [Bool.false_eq_true, if_false] at hread
      split at hread
      · cases hread
      · rename_i hmissing
        cases hread
        exact ⟨[], [], rest, .close hclose, rfl, rfl, rfl, find?_missing_eq_none.1 hmissing⟩
    | true =>
      simp only [if_true] at hread
      obtain ⟨⟨name, text₂⟩, hname, hread⟩ := bind_eq_ok.1 hread
      rw [placed_eq_ok] at hname
      dsimp only at hread
      -- a field of the record stores its tree, any other member is skipped
      split at hread
      · rename_i field hfield
        split at hread
        · cases hread
        · rename_i hset
          obtain ⟨text₃, hcolon, hread⟩ := bind_eq_ok.1 hread
          obtain ⟨⟨state₁, text₄⟩, hvalue, hread⟩ := bind_eq_ok.1 hread
          dsimp only at hread
          obtain ⟨key, hlabel, hkey⟩ := labelText_iff.1 ⟨_, _, hnext, hname, placed_eq_ok.1 hcolon⟩
          have := hlabel.length_lt
          obtain ⟨tree, htree, hstore⟩ := (h.field hfield _ (by omega)).1 hvalue
          have := htree.length_lt
          obtain ⟨members, fields, rest, hmembers, rfl, hkeys, hrun, hcomplete⟩ := ih (by omega) hread
          refine ⟨_, (name, tree) :: fields, rest, .member hlabel htree hmembers, rfl, ?_, ?_,
            hcomplete⟩
          · exact decode?_cons_eq_some.2 ⟨name, tree, fields, hkey, rfl, hkeys, rfl⟩
          · exact (run?_field hfield).2 ⟨by simpa using hset, state₁, hstore, hrun⟩
      · rename_i hfield
        obtain ⟨text₃, hcolon, hread⟩ := bind_eq_ok.1 hread
        obtain ⟨text₄, hvalue, hread⟩ := bind_eq_ok.1 hread
        obtain ⟨key, hlabel, hkey⟩ := labelText_iff.1 ⟨_, _, hnext, hname, placed_eq_ok.1 hcolon⟩
        have := hlabel.length_lt
        obtain ⟨tree, htree⟩ := (skipValue_eq_ok (by omega)).1 (placed_eq_ok.1 hvalue)
        have := htree.length_lt
        obtain ⟨members, fields, rest, hmembers, rfl, hkeys, hrun, hcomplete⟩ := ih (by omega) hread
        refine ⟨_, (name, tree) :: fields, rest, .member hlabel htree hmembers, rfl, ?_, ?_,
          hcomplete⟩
        · exact decode?_cons_eq_some.2 ⟨name, tree, fields, hkey, rfl, hkeys, rfl⟩
        · rw [run?_other hfield, hrun]

theorem Stores.readMembers_append (h : record.Stores limit store)
    {before after : List (List StringPart × Tree)} {fields : List (String × Tree)}
    (hmembers : MembersText isFirst text (before ++ after) rest)
    (hfields : decode? some before = some fields)
    (hrun : record.run? store state fields = some state')
    (hlimit : text.length < limit) (hfuel : text.length < fuel) :
    ∃ isFirst' text' fuel', MembersText isFirst' text' after rest ∧ text'.length < limit ∧
      text'.length < fuel' ∧ record.readMembers limit isFirst state fuel text =
        record.readMembers limit isFirst' state' fuel' text' := by
  induction before generalizing isFirst text fuel state fields with
  | nil =>
    cases hfields
    cases hrun
    exact ⟨isFirst, text, fuel, hmembers, hlimit, hfuel, rfl⟩
  | cons member before ih =>
    obtain ⟨key, tree⟩ := member
    obtain ⟨fuel, rfl⟩ := Nat.exists_eq_add_one_of_ne_zero (Nat.ne_of_gt (Nat.zero_lt_of_lt hfuel))
    obtain ⟨name, _, others, hkey, ⟨⟩, hkeys, rfl⟩ := decode?_cons_eq_some.1 hfields
    cases hmembers with
    | member hlabel htree hmembers =>
      have := hlabel.length_lt
      have := htree.length_lt
      cases hfield : record.fields.find? (·.name = name) with
      | some field =>
        obtain ⟨hset, state₁, hstore, hrun⟩ := (run?_field hfield).1 hrun
        have hread := (h.field hfield _ (by omega)).2 ⟨_, htree, hstore⟩
        rw [readMembers_field hlabel hkey hfield hset, hread, ok_bind]
        exact ih hmembers hkeys hrun (by omega) (by omega)
      | none =>
        rw [run?_other hfield] at hrun
        have hskip : skipValue limit _ = .ok _ := (skipValue_eq_ok (by omega)).2 ⟨_, htree⟩
        rw [readMembers_other hlabel hkey hfield, hskip, placed_ok, ok_bind]
        exact ih hmembers hkeys hrun (by omega) (by omega)

theorem Stores.readMembers (h : record.Stores limit store) (hlimit : text.length < limit)
    (hfuel : text.length < fuel) {text' : List Char} :
    record.readMembers limit isFirst state fuel text = .ok (state', text') ↔
      ∃ members fields rest, MembersText isFirst text members rest ∧ text' = '\x7d' :: rest ∧
        decode? some members = some fields ∧ record.run? store state fields = some state' ∧
          record.Complete state' := by
  refine ⟨h.of_readMembers hlimit, ?_⟩
  rintro ⟨members, fields, rest, hmembers, rfl, hkeys, hrun, hcomplete⟩
  rw [← List.append_nil members] at hmembers
  obtain ⟨isFirst', text', fuel', hend, -, hfuel', hread⟩ :=
    h.readMembers_append hmembers hkeys hrun hlimit hfuel
  obtain ⟨fuel', rfl⟩ := Nat.exists_eq_add_one_of_ne_zero (Nat.ne_of_gt (Nat.zero_lt_of_lt hfuel'))
  cases hend with
  | close hclose => rw [hread, readMembers_end hclose hcomplete]

-- ---------------------------------------------------------------------------
-- Items
-- ---------------------------------------------------------------------------

theorem Stores.find?_name (h : record.Stores limit store) {field : Field σ}
    (hfield : field ∈ record.fields) :
    record.fields.find? (·.name = field.name) = some field := by
  have hsome : (record.fields.find? (·.name = field.name)).isSome := by
    rw [List.find?_isSome]
    exact ⟨field, hfield, by simp⟩
  obtain ⟨other, hother⟩ := Option.isSome_iff_exists.1 hsome
  have hname : other.name = field.name := by simpa using List.find?_some hother
  rw [hother, List.inj_on_of_nodup_map h.nodup (List.mem_of_find?_eq_some hother) hfield hname]

theorem readArrayEnd_eq_ok : readArrayEnd text = .ok rest ↔ AfterBlanks text (']' :: rest) := by
  rw [afterBlanks_cons_iff (by decide)]
  constructor
  · intro h
    unfold readArrayEnd at h
    split at h
    · cases h
    · rename_i hskip
      cases h
      exact hskip
    · split at h <;> cases h
    · cases h
  · intro h
    simp [readArrayEnd, h]

theorem readItems_field {index : Nat} {field : Field σ} {fields : List (Field σ)} {tree : Tree}
    (hfield : ReadsTree limit (field.read state) (store field.name state))
    (hlimit : text.length < limit) (hcomma : Separated isFirst text text₁)
    (htree : TreeText text₁ tree rest) (hstore : store field.name state tree = some state') :
    record.readItems isFirst index state (field :: fields) text =
      record.readItems false (index + 1) state' fields rest := by
  obtain ⟨text₂, hnext, hread⟩ := (hfield.nextItem hlimit).2 ⟨text₁, tree, hcomma, htree, hstore⟩
  simp only [readItems, hnext, placed_ok, ok_bind, if_true, hread]

theorem Stores.readItems_append (h : record.Stores limit store) (index : Nat)
    {before : List (Field σ)} (after : List (Field σ)) {items others : List Tree}
    (hbefore : ∀ field ∈ before, field ∈ record.fields)
    (hlength : items.length = before.length)
    (hitems : ItemsText isFirst text (items ++ others) rest)
    (hrun : record.run? store state ((before.map (·.name)).zip items) = some state')
    (hlimit : text.length < limit) :
    ∃ isFirst' index' text', ItemsText isFirst' text' others rest ∧ text'.length < limit ∧
      record.readItems isFirst index state (before ++ after) text =
        record.readItems isFirst' index' state' after text' := by
  induction before generalizing isFirst text state items index with
  | nil =>
    cases List.length_eq_zero_iff.1 hlength
    cases hrun
    exact ⟨isFirst, index, text, hitems, hlimit, rfl⟩
  | cons field before ih =>
    cases items with
    | nil => cases hlength
    | cons tree items =>
      obtain ⟨hfield, hbefore⟩ := List.forall_mem_cons.1 hbefore
      cases hitems with
      | item hcomma htree hitems =>
        rw [List.map_cons, List.zip_cons_cons, run?_field (h.find?_name hfield)] at hrun
        obtain ⟨-, state₁, hstore, hrun⟩ := hrun
        have := hcomma.length_le
        have := htree.length_lt
        rw [List.cons_append, readItems_field (h.reads field hfield state) hlimit hcomma htree hstore]
        exact ih _ hbefore (Nat.succ.inj hlength) hitems hrun (by omega)

theorem readItems_end {index : Nat} {fields : List (Field σ)} {text' : List Char}
    (hclose : AfterBlanks text (']' :: rest))
    (hread : record.readItems isFirst index state fields text = .ok (state', text')) :
    state' = state ∧ (∀ field ∈ fields, field.required = false) ∧
      AfterBlanks text' (']' :: rest) := by
  induction fields generalizing text index with
  | nil =>
    cases hread
    exact ⟨rfl, by simp, hclose⟩
  | cons field fields ih =>
    simp only [readItems, nextItem_false.2 ⟨rest, hclose, rfl⟩, placed_ok, ok_bind,
      Bool.false_eq_true, if_false] at hread
    split at hread
    · cases hread
    · rename_i hrequired
      obtain ⟨rfl, hfields, hend⟩ := ih ⟨[], by simp, rfl⟩ hread
      exact ⟨rfl, List.forall_mem_cons.2 ⟨by simpa using hrequired, hfields⟩, hend⟩

theorem exists_readItems_end {index : Nat} {fields : List (Field σ)}
    (hclose : AfterBlanks text (']' :: rest)) (hfields : ∀ field ∈ fields, field.required = false) :
    ∃ text', record.readItems isFirst index state fields text = .ok (state, text') ∧
      AfterBlanks text' (']' :: rest) := by
  induction fields generalizing text index with
  | nil => exact ⟨text, rfl, hclose⟩
  | cons field fields ih =>
    obtain ⟨hfield, hfields⟩ := List.forall_mem_cons.1 hfields
    simp only [readItems, nextItem_false.2 ⟨rest, hclose, rfl⟩, placed_ok, ok_bind,
      Bool.false_eq_true, if_false, hfield]
    exact ih ⟨[], by simp, rfl⟩ hfields

theorem Stores.isSet_iff_of_run? (h : record.Stores limit store) {other : Field σ}
    {fields : List (String × Tree)} (hother : other ∈ record.fields)
    (hrun : record.run? store state fields = some state') :
    other.isSet state' = true ↔ other.isSet state = true ∨ other.name ∈ fields.map Prod.fst := by
  induction fields generalizing state with
  | nil =>
    cases hrun
    simp
  | cons given fields ih =>
    obtain ⟨name, tree⟩ := given
    cases hfield : record.fields.find? (·.name = name) with
    | some field =>
      obtain ⟨-, state₁, hstore, hothers⟩ := (run?_field hfield).1 hrun
      have hname : field.name = name := by simpa using List.find?_some hfield
      subst hname
      rw [ih hothers, h.sets field (List.mem_of_find?_eq_some hfield) other hother hstore,
        List.map_cons, List.mem_cons]
      tauto
    | none =>
      rw [run?_other hfield] at hrun
      have hname : other.name ≠ name := by simpa using List.find?_eq_none.1 hfield other hother
      rw [ih hrun, List.map_cons, List.mem_cons, or_iff_right hname]

theorem Stores.of_readItems (h : record.Stores limit store) {fields : List (Field σ)} {index : Nat}
    {text' : List Char} (hfields : ∀ field ∈ fields, field ∈ record.fields)
    (hnodup : (fields.map (·.name)).Nodup) (hunset : ∀ field ∈ fields, field.isSet state = false)
    (hlimit : text.length < limit)
    (hread : record.readItems isFirst index state fields text = .ok (state', text'))
    (hend : AfterBlanks text' (']' :: rest)) :
    ∃ items, ItemsText isFirst text items rest ∧ items.length ≤ fields.length ∧
      record.run? store state ((fields.map (·.name)).zip items) = some state' ∧
        ∀ field ∈ fields, field.required = true → field.isSet state' = true := by
  -- the fields that are left are not set before their items come
  induction fields generalizing isFirst text state index with
  | nil =>
    cases hread
    exact ⟨[], .close hend, le_rfl, rfl, by simp⟩
  | cons field fields ih =>
    obtain ⟨hfield, hothers⟩ := List.forall_mem_cons.1 hfields
    obtain ⟨hunset, hothersUnset⟩ := List.forall_mem_cons.1 hunset
    rw [List.map_cons, List.nodup_cons] at hnodup
    unfold readItems at hread
    obtain ⟨⟨more, text₁⟩, hnext, hread⟩ := bind_eq_ok.1 hread
    rw [placed_eq_ok] at hnext
    cases more with
    | true =>
      simp only [if_true] at hread
      obtain ⟨⟨state₁, text₂⟩, hvalue, hread⟩ := bind_eq_ok.1 hread
      dsimp only at hread
      obtain ⟨text₁, tree, hcomma, htree, hstore⟩ :=
        ((h.reads field hfield state).nextItem hlimit).1 ⟨_, hnext, hvalue⟩
      have := hcomma.length_le
      have := htree.length_lt
      have hsets {other} (hother : other ∈ record.fields) :=
        h.sets field hfield other hother hstore
      have hunset₁ : ∀ other ∈ fields, other.isSet state₁ = false := by
        intro other hother
        rw [← Bool.not_eq_true, hsets (hothers other hother), hothersUnset other hother]
        rintro (hname | hset)
        · exact hnodup.1 (hname ▸ List.mem_map_of_mem hother)
        · cases hset
      obtain ⟨items, hitems, hlength, hrun, hcomplete⟩ :=
        ih hothers hnodup.2 hunset₁ (by omega) hread
      refine ⟨tree :: items, .item hcomma htree hitems, Nat.succ_le_succ hlength, ?_, ?_⟩
      · exact (run?_field (h.find?_name hfield)).2 ⟨hunset, state₁, hstore, hrun⟩
      · refine List.forall_mem_cons.2 ⟨fun _ => ?_, hcomplete⟩
        exact (h.isSet_iff_of_run? hfield hrun).2 (.inl ((hsets hfield).2 (.inl rfl)))
    | false =>
      -- the items end here, so no field that is left is required
      obtain ⟨rest', hclose, rfl⟩ := nextItem_false.1 hnext
      simp only [Bool.false_eq_true, if_false] at hread
      split at hread
      · cases hread
      · rename_i hrequired
        obtain ⟨rfl, hnone, hend'⟩ := readItems_end ⟨[], by simp, rfl⟩ hread
        rw [afterBlanks_cons_iff (by decide)] at hend hend'
        cases hend.symm.trans hend'
        refine ⟨[], .close hclose, Nat.zero_le _, by rw [List.zip_nil_right]; rfl, ?_⟩
        refine List.forall_mem_cons.2 ⟨fun h => absurd h hrequired, fun other hother h => ?_⟩
        rw [hnone other hother] at h
        cases h

theorem Stores.exists_readItems (h : record.Stores limit store)
    (hunset : ∀ field ∈ record.fields, field.isSet state = false) (hlimit : text.length < limit)
    {items : List Tree} (hitems : ItemsText true text items rest)
    (hlength : items.length ≤ record.fields.length)
    (hrun : record.run? store state ((record.fields.map (·.name)).zip items) = some state')
    (hcomplete : record.Complete state') :
    ∃ text', record.readItems true 0 state record.fields text = .ok (state', text') ∧
      AfterBlanks text' (']' :: rest) := by
  -- the fields that have an item, and the others, of which none is required
  obtain ⟨before, after, hfields, hbefore⟩ :
      ∃ before after, record.fields = before ++ after ∧ items.length = before.length :=
    ⟨record.fields.take items.length, record.fields.drop items.length,
      (List.take_append_drop _ _).symm, by simp [hlength]⟩
  have hzip : (record.fields.map (·.name)).zip items = (before.map (·.name)).zip items := by
    have happend : (before.map (·.name) ++ after.map (·.name)).zip (items ++ []) =
        (before.map (·.name)).zip items ++ (after.map (·.name)).zip [] :=
      List.zip_append (by simp [hbefore])
    simpa [hfields] using happend
  rw [hzip] at hrun
  have hmem : ∀ field ∈ before, field ∈ record.fields := fun field hm => by simp [hfields, hm]
  have hleft : ∀ field ∈ after, field.required = false := by
    intro field hm
    have hfield : field ∈ record.fields := by simp [hfields, hm]
    have hset : field.isSet state' = false := by
      rw [← Bool.not_eq_true, h.isSet_iff_of_run? hfield hrun, hunset field hfield]
      rintro (hset | hname)
      · cases hset
      · have hnodup := h.nodup
        rw [hfields, List.map_append, List.nodup_append] at hnodup
        rw [List.map_fst_zip (by simp [hbefore])] at hname
        exact hnodup.2.2 _ hname _ (List.mem_map_of_mem hm) rfl
    rw [← Bool.not_eq_true]
    intro hrequired
    rw [hcomplete field hfield hrequired] at hset
    cases hset
  rw [← List.append_nil items] at hitems
  obtain ⟨isFirst', index', text', hend, -, hread⟩ :=
    h.readItems_append 0 after hmem hbefore hitems hrun hlimit
  cases hend with
  | close hclose =>
    rw [hfields, hread]
    exact exists_readItems_end hclose hleft

-- ---------------------------------------------------------------------------
-- Whole records
-- ---------------------------------------------------------------------------

theorem ofTree?_eq_some {start : σ} {room : Nat} {tree : Tree} :
    record.ofTree? store start room tree = some state ↔
      room ≠ 0 ∧ ∃ fields, tree.fields? (record.fields.map (·.name)) = some fields ∧
        record.run? store start fields = some state ∧ record.Complete state := by
  unfold ofTree?
  split
  · simp_all
  · rename_i hroom
    simp only [Option.bind_eq_bind, Option.bind_eq_some_iff, Option.ite_none_right_eq_some,
      Option.some.injEq]
    constructor
    · rintro ⟨fields, hfields, _, hrun, hcomplete, rfl⟩
      exact ⟨hroom, fields, hfields, hrun, hcomplete⟩
    · rintro ⟨-, fields, hfields, hrun, hcomplete⟩
      exact ⟨fields, hfields, state, hrun, hcomplete, rfl⟩

theorem passObjectEnd_brace : passObjectEnd ('\x7d' :: rest) = rest := by
  simp [passObjectEnd, skipBlanks_cons (c := '\x7d') (by decide)]

theorem Stores.read (fields : Nat → Record σ) {room : Nat} {start : σ}
    (h : (fields (room - 1)).Stores limit store)
    (hunset : ∀ field ∈ (fields (room - 1)).fields, field.isSet start = false) :
    ReadsTree limit (Record.read fields limit start room)
      ((fields (room - 1)).ofTree? store start room) := by
  intro text rest state hlimit
  simp only [ofTree?_eq_some]
  unfold Record.read
  dsimp only
  split
  -- an object gives its members, up to the brace that the record passes in the end
  · rename_i text₁ hskip
    have hlength := Nat.lt_trans (length_of_skipBlanks hskip) hlimit
    split
    · simp_all
    · rename_i hroom
      constructor
      · intro hread
        obtain ⟨⟨state₁, text₂⟩, hmembers, hread⟩ := bind_eq_ok.1 hread
        rw [mapError_eq_ok] at hmembers
        obtain ⟨members, fields, rest', hmembers, rfl, hkeys, hrun, hcomplete⟩ :=
          h.of_readMembers hlength hmembers
        cases hread
        refine ⟨.object members, (treeText_object_iff hskip).2 ⟨members, rfl, ?_⟩, hroom, fields,
          hkeys, hrun, hcomplete⟩
        rwa [passObjectEnd_brace]
      · rintro ⟨tree, htree, -, fields, hfields, hrun, hcomplete⟩
        obtain ⟨members, rfl, hmembers⟩ := (treeText_object_iff hskip).1 htree
        have hread := (h.readMembers hlength hlength).2
          ⟨members, fields, rest, hmembers, rfl, hfields, hrun, hcomplete⟩
        refine bind_eq_ok.2 ⟨_, mapError_eq_ok.2 hread, ?_⟩
        simp [passObjectEnd_brace]
  -- an array gives its items to the fields in order, and nothing may follow them
  · rename_i text₁ hskip
    have hlength := Nat.lt_trans (length_of_skipBlanks hskip) hlimit
    split
    · simp_all
    · rename_i hroom
      constructor
      · intro hread
        obtain ⟨⟨state₁, text₂⟩, hitems, hread⟩ := bind_eq_ok.1 hread
        obtain ⟨rest', hend, hread⟩ := bind_eq_ok.1 hread
        rw [mapError_eq_ok] at hitems
        cases hread
        obtain ⟨items, hitems, hcount, hrun, hcomplete⟩ :=
          h.of_readItems (fun _ => id) h.nodup hunset hlength hitems (readArrayEnd_eq_ok.1 hend)
        refine ⟨.array items, (treeText_array_iff hskip).2 ⟨items, rfl, hitems⟩, hroom, _, ?_, hrun,
          hcomplete⟩
        simpa [Tree.fields?] using hcount
      · rintro ⟨tree, htree, -, fields, hfields, hrun, hcomplete⟩
        obtain ⟨items, rfl, hitems⟩ := (treeText_array_iff hskip).1 htree
        simp only [Tree.fields?, List.length_map, Option.ite_none_right_eq_some,
          Option.some.injEq] at hfields
        obtain ⟨hcount, rfl⟩ := hfields
        obtain ⟨text', hread, hend⟩ := h.exists_readItems hunset hlength hitems hcount hrun hcomplete
        refine bind_eq_ok.2 ⟨_, mapError_eq_ok.2 hread, bind_eq_ok.2 ⟨rest, ?_, rfl⟩⟩
        exact readArrayEnd_eq_ok.2 hend
  -- anything else is no record, and its tree gives no fields
  · rename_i harray hobject
    refine ⟨fun h => absurd h mismatch_ne_ok, ?_⟩
    rintro ⟨tree, htree, -, fields, hfields, -⟩
    have hscalar := (treeText_scalar_iff hobject harray).1 htree
    generalize skipBlanks text = text₁ at hscalar
    cases hscalar <;> cases hfields

-- ---------------------------------------------------------------------------
-- Fields that fail
-- ---------------------------------------------------------------------------

variable {error : ContentError}

/-- Whether a reader fails on a tree for an error in its content. -/
def FailsOn {α : Type} (limit : Nat) (read : List Char → Except Failure α) (tree : Tree)
    (error : ContentError) : Prop :=
  ∀ ⦃text rest : List Char⦄, text.length < limit → TreeText text tree rest →
    ∃ rest', read text = .error (.unplaced error rest')

theorem FailsOn.bind {α β : Type} {read : List Char → Except Failure α} {tree : Tree}
    (h : FailsOn limit read tree error) (next : α → Except Failure β) :
    FailsOn limit (fun text => read text >>= next) tree error := by
  intro text rest hlimit htree
  obtain ⟨rest', hread⟩ := h hlimit htree
  exact ⟨rest', by simp only [hread]; rfl⟩

theorem Stores.readMembers_fails (h : record.Stores limit store)
    {members : List (List StringPart × Tree)} {before after : List (String × Tree)} {name : String}
    {tree : Tree} {field : Field σ}
    (hmembers : MembersText isFirst text members rest)
    (hkeys : decode? some members = some (before ++ (name, tree) :: after))
    (hrun : record.run? store state before = some state')
    (hfield : record.fields.find? (·.name = name) = some field) (hset : field.isSet state' = false)
    (hfails : FailsOn limit (field.read state') tree error) (hlimit : text.length < limit)
    (hfuel : text.length < fuel) :
    ∃ rest', record.readMembers limit isFirst state fuel text = .error (.unplaced error rest') := by
  obtain ⟨front, back, rfl, hfront, hback⟩ := exists_of_decode?_append hkeys
  obtain ⟨isFirst', text', fuel', hmembers, hlimit', hfuel', hread⟩ :=
    h.readMembers_append hmembers hfront hrun hlimit hfuel
  obtain ⟨fuel', rfl⟩ := Nat.exists_eq_add_one_of_ne_zero (Nat.ne_of_gt (Nat.zero_lt_of_lt hfuel'))
  cases hmembers with
  | close _ => cases hback
  | member hlabel htree hmembers =>
    obtain ⟨_, _, _, hkey, ⟨⟩, -, heq⟩ := decode?_cons_eq_some.1 hback
    obtain ⟨⟨rfl, rfl⟩, rfl⟩ := List.cons.inj heq
    obtain ⟨rest', hvalue⟩ := hfails (Nat.lt_trans hlabel.length_lt hlimit') htree
    exact ⟨rest', by rw [hread, readMembers_field hlabel hkey hfield hset, hvalue]; rfl⟩

theorem Stores.readItems_fails (h : record.Stores limit store) {items : List Tree}
    {before after : List (String × Tree)} {name : String} {tree : Tree} {field : Field σ}
    (hitems : ItemsText true text items rest)
    (hzip : (record.fields.map (·.name)).zip items = before ++ (name, tree) :: after)
    (hrun : record.run? store state before = some state')
    (hfield : record.fields.find? (·.name = name) = some field)
    (hfails : FailsOn limit (field.read state') tree error) (hlimit : text.length < limit) :
    ∃ rest', record.readItems true 0 state record.fields text = .error (.unplaced error rest') := by
  obtain ⟨names, others, items, trees, hlength, hnames, rfl, rfl, hothers⟩ :=
    List.zip_eq_append_iff.1 hzip
  obtain ⟨others, trees, rfl, rfl, rfl⟩ := List.zip_eq_cons_iff.1 hothers.symm
  obtain ⟨front, back, hfields, rfl, hback⟩ := List.map_eq_append_iff.1 hnames
  obtain ⟨field', back, rfl, rfl, rfl⟩ := List.map_eq_cons_iff.1 hback
  have hmem : field' ∈ record.fields := by simp [hfields]
  cases hfield.symm.trans (h.find?_name hmem)
  have hfront : ∀ field ∈ front, field ∈ record.fields := fun field hm => by simp [hfields, hm]
  obtain ⟨isFirst', index', text', hitems, hlimit', hread⟩ :=
    h.readItems_append 0 (field :: back) hfront (by simpa using hlength.symm) hitems hrun hlimit
  cases hitems with
  | item hcomma htree hitems =>
    have := hcomma.length_le
    obtain ⟨rest', hvalue⟩ := hfails
      (Nat.lt_of_le_of_lt (Nat.le_trans length_skipBlanks_le hcomma.length_le) hlimit')
      (treeText_skipBlanks_iff.2 htree)
    refine ⟨rest', ?_⟩
    rw [hfields, hread]
    simp only [readItems, nextItem_treeText hcomma htree, placed_ok, ok_bind, if_true, hvalue]
    rfl

theorem Stores.read_fails (fields : Nat → Record σ) {room : Nat} {start : σ} {tree given : Tree}
    {before after : List (String × Tree)} {name : String} {field : Field σ}
    (h : (fields (room - 1)).Stores limit store) (hroom : room ≠ 0)
    (hgiven : tree.fields? ((fields (room - 1)).fields.map (·.name)) =
      some (before ++ (name, given) :: after))
    (hrun : (fields (room - 1)).run? store start before = some state)
    (hfield : (fields (room - 1)).fields.find? (·.name = name) = some field)
    (hset : field.isSet state = false) (hfails : FailsOn limit (field.read state) given error)
    (htree : TreeText text tree rest) (hlimit : text.length < limit) :
    ∃ bytesLeft, Record.read fields limit start room text = .error ⟨.content error, bytesLeft⟩ := by
  cases tree with
  | null | boolean | number | string => cases hgiven
  | array items =>
    cases htree with
    | scalar _ hscalar => cases hscalar
    | array hopen hitems =>
      simp only [Tree.fields?, Option.ite_none_right_eq_some, Option.some.injEq] at hgiven
      have hskip := (afterBlanks_cons_iff (by decide)).1 hopen
      have hlength := Nat.lt_trans (length_of_skipBlanks hskip) hlimit
      obtain ⟨rest', hread⟩ := h.readItems_fails hitems hgiven.2 hrun hfield hfails hlength
      refine ⟨byteCount (passArrayEnd rest'), ?_⟩
      simp only [Record.read, hskip, if_neg hroom, hread]
      rfl
  | object members =>
    cases htree with
    | scalar _ hscalar => cases hscalar
    | object hopen hmembers =>
      have hskip := (afterBlanks_cons_iff (by decide)).1 hopen
      have hlength := Nat.lt_trans (length_of_skipBlanks hskip) hlimit
      obtain ⟨rest', hread⟩ :=
        h.readMembers_fails hmembers hgiven hrun hfield hset hfails hlength hlength
      refine ⟨byteCount (passObjectEnd rest'), ?_⟩
      simp only [Record.read, hskip, if_neg hroom, hread]
      rfl

end Record

end

end ContentTypes.Json
