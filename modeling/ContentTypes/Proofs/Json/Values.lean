import ContentTypes.Proofs.Json.Lexemes

/-!
# Reading values

`readValue_eq_ok`: the values that are read are those of the trees of the grammar.
-/

namespace ContentTypes.Json

variable {text rest : List Char}

-- ---------------------------------------------------------------------------
-- What a text begins with
-- ---------------------------------------------------------------------------

theorem StringText.length_lt {parts : List StringPart} (h : StringText text parts rest) :
    rest.length < text.length := by
  induction h with
  | close => simp
  | plain _ _ _ _ ih | short _ _ ih | unit _ _ ih =>
    simp only [List.length_cons]
    omega

theorem DigitsText.length_lt {digits : List Char} (h : DigitsText text digits rest) :
    rest.length < text.length := by
  obtain ⟨rfl, hne, -⟩ := h
  have := List.length_pos_iff.2 hne
  simp only [List.length_append]
  omega

theorem FractionText.length_le {fraction? : Option (List Char)}
    (h : FractionText text fraction? rest) : rest.length ≤ text.length := by
  cases h with
  | none => rfl
  | some hdigits =>
    have := hdigits.length_lt
    simp only [List.length_cons]
    omega

theorem ExponentText.length_le {exponent? : Option (Bool × List Char)}
    (h : ExponentText text exponent? rest) : rest.length ≤ text.length := by
  cases h with
  | none => rfl
  | unsigned _ hdigits | plus _ hdigits | minus _ hdigits =>
    have := hdigits.length_lt
    simp only [List.length_cons]
    omega

theorem SignText.length_le {negative : Bool} (h : SignText text negative rest) :
    rest.length ≤ text.length := by
  cases negative with
  | true => simp [show text = '-' :: rest from h]
  | false => simp [show rest = text from h.2]

theorem ScalarText.length_lt {tree : Tree} (h : ScalarText text tree rest) :
    rest.length < text.length := by
  cases h with
  | null | isTrue | isFalse =>
    simp only [List.length_cons]
    omega
  | string hparts =>
    have := hparts.length_lt
    simp only [List.length_cons]
    omega
  | number hnumber =>
    obtain ⟨text₁, text₂, text₃, hsign, hwhole, hfraction, hexponent⟩ := hnumber
    have := hsign.length_le
    have := hwhole.length_lt
    have := hfraction.length_le
    have := hexponent.length_le
    omega

theorem AfterBlanks.length_le (h : AfterBlanks text rest) : rest.length ≤ text.length := by
  obtain ⟨blanks, -, rfl⟩ := h
  simp

theorem Separated.length_le {isFirst : Bool} (h : Separated isFirst text rest) :
    rest.length ≤ text.length := by
  cases isFirst with
  | true => simp [show rest = text from h]
  | false =>
    have := AfterBlanks.length_le h
    simp only [List.length_cons] at this
    omega

theorem LabelText.length_lt {isFirst : Bool} {key : List StringPart}
    (h : LabelText isFirst text key rest) : rest.length < text.length := by
  obtain ⟨text₁, text₂, text₃, hcomma, hquote, hkey, hcolon⟩ := h
  have := hcomma.length_le
  have := hquote.length_le
  have := hkey.length_lt
  have := hcolon.length_le
  simp only [List.length_cons] at *
  omega

mutual

theorem TreeText.length_lt {text rest : List Char} {tree : Tree} :
    TreeText text tree rest → rest.length < text.length
  | .scalar hblanks hscalar => Nat.lt_of_lt_of_le hscalar.length_lt hblanks.length_le
  | .array hopen hitems => Nat.lt_trans hitems.length_lt hopen.length_le
  | .object hopen hmembers => Nat.lt_trans hmembers.length_lt hopen.length_le

theorem ItemsText.length_lt {isFirst : Bool} {text rest : List Char} {trees : List Tree} :
    ItemsText isFirst text trees rest → rest.length < text.length
  | .close hclose => hclose.length_le
  | .item hcomma hitem hothers =>
    Nat.lt_of_lt_of_le (Nat.lt_trans hothers.length_lt hitem.length_lt) hcomma.length_le

theorem MembersText.length_lt {isFirst : Bool} {text rest : List Char}
    {members : List (List StringPart × Tree)} :
    MembersText isFirst text members rest → rest.length < text.length
  | .close hclose => hclose.length_le
  | .member hlabel hitem hothers =>
    Nat.lt_trans (Nat.lt_trans hothers.length_lt hitem.length_lt) hlabel.length_lt

end

theorem skipBlanks_skipBlanks : skipBlanks (skipBlanks text) = skipBlanks text :=
  (skipBlanks_eq_of_afterBlanks afterBlanks_skipBlanks).symm

theorem ScalarText.afterBlanks_iff {tree : Tree} :
    (∃ text₁, AfterBlanks text text₁ ∧ ScalarText text₁ tree rest) ↔
      ScalarText (skipBlanks text) tree rest := by
  constructor
  · rintro ⟨text₁, hblanks, hscalar⟩
    obtain ⟨c, others, rfl, hc⟩ := hscalar.head
    rwa [(afterBlanks_cons_iff hc.isBlank_eq_false).1 hblanks]
  · exact fun hscalar => ⟨_, afterBlanks_skipBlanks, hscalar⟩

theorem treeText_iff {tree : Tree} :
    TreeText text tree rest ↔
      ScalarText (skipBlanks text) tree rest ∨
      (∃ text₁ items, skipBlanks text = '[' :: text₁ ∧ tree = .array items ∧
        ItemsText true text₁ items rest) ∨
      ∃ text₁ members, skipBlanks text = '\x7b' :: text₁ ∧ tree = .object members ∧
        MembersText true text₁ members rest := by
  simp only [← ScalarText.afterBlanks_iff, ← afterBlanks_cons_iff (c := '[') (by decide),
    ← afterBlanks_cons_iff (c := '\x7b') (by decide)]
  constructor
  · intro h
    cases h with
    | scalar hblanks hscalar => exact .inl ⟨_, hblanks, hscalar⟩
    | array hopen hitems => exact .inr (.inl ⟨_, _, hopen, rfl, hitems⟩)
    | object hopen hmembers => exact .inr (.inr ⟨_, _, hopen, rfl, hmembers⟩)
  · rintro (⟨text₁, hblanks, hscalar⟩ | ⟨text₁, items, hopen, rfl, hitems⟩ |
      ⟨text₁, members, hopen, rfl, hmembers⟩)
    · exact .scalar hblanks hscalar
    · exact .array hopen hitems
    · exact .object hopen hmembers

theorem treeText_array_iff {text₁ : List Char} {tree : Tree} (hskip : skipBlanks text = '[' :: text₁) :
    TreeText text tree rest ↔ ∃ items, tree = .array items ∧ ItemsText true text₁ items rest := by
  rw [treeText_iff, hskip]
  constructor
  · rintro (h | ⟨_, items, ⟨⟩, rfl, hitems⟩ | ⟨_, members, ⟨⟩, -⟩)
    · obtain ⟨_, _, ⟨⟩, hc⟩ := h.head
      exact absurd hc (by decide)
    · exact ⟨items, rfl, hitems⟩
  · rintro ⟨items, rfl, hitems⟩
    exact .inr (.inl ⟨_, items, rfl, rfl, hitems⟩)

theorem treeText_object_iff {text₁ : List Char} {tree : Tree}
    (hskip : skipBlanks text = '\x7b' :: text₁) :
    TreeText text tree rest ↔
      ∃ members, tree = .object members ∧ MembersText true text₁ members rest := by
  rw [treeText_iff, hskip]
  constructor
  · rintro (h | ⟨_, items, ⟨⟩, -⟩ | ⟨_, members, ⟨⟩, rfl, hmembers⟩)
    · obtain ⟨_, _, ⟨⟩, hc⟩ := h.head
      exact absurd hc (by decide)
    · exact ⟨members, rfl, hmembers⟩
  · rintro ⟨members, rfl, hmembers⟩
    exact .inr (.inr ⟨_, members, rfl, rfl, hmembers⟩)

theorem treeText_scalar_iff {tree : Tree} (harray : ∀ text₁, skipBlanks text ≠ '[' :: text₁)
    (hobject : ∀ text₁, skipBlanks text ≠ '\x7b' :: text₁) :
    TreeText text tree rest ↔ ScalarText (skipBlanks text) tree rest := by
  rw [treeText_iff]
  constructor
  · rintro (h | ⟨text₁, _, hskip, -⟩ | ⟨text₁, _, hskip, -⟩)
    · exact h
    · exact absurd hskip (harray text₁)
    · exact absurd hskip (hobject text₁)
  · exact .inl

theorem treeText_skipBlanks_iff {tree : Tree} :
    TreeText (skipBlanks text) tree rest ↔ TreeText text tree rest := by
  simp only [treeText_iff, skipBlanks_skipBlanks]

theorem TreeText.head {tree : Tree} (h : TreeText text tree rest) :
    ∃ c others, skipBlanks text = c :: others ∧ (StartsScalar c ∨ c = '[' ∨ c = '\x7b') := by
  rcases treeText_iff.1 h with h | ⟨text₁, items, hopen, -⟩ | ⟨text₁, members, hopen, -⟩
  · obtain ⟨c, others, htext, hc⟩ := h.head
    exact ⟨c, others, htext, .inl hc⟩
  · exact ⟨_, _, hopen, .inr (.inl rfl)⟩
  · exact ⟨_, _, hopen, .inr (.inr rfl)⟩

-- ---------------------------------------------------------------------------
-- Items and members
-- ---------------------------------------------------------------------------

theorem decode?_cons_eq_some {α β : Type} {f : α → Option β} {key : List StringPart} {a : α}
    {members : List (List StringPart × α)} {fields : List (String × β)} :
    decode? f ((key, a) :: members) = some fields ↔
      ∃ name b others, textOf? key = some name ∧ f a = some b ∧ decode? f members = some others ∧
        fields = (name, b) :: others := by
  simp only [decode?, mapM_cons_eq_some, Option.bind_eq_bind, Option.bind_eq_some_iff,
    Option.pure_def, Option.some.injEq]
  constructor
  · rintro ⟨_, others, ⟨name, hkey, b, ha, rfl⟩, hothers, rfl⟩
    exact ⟨name, b, others, hkey, ha, hothers, rfl⟩
  · rintro ⟨name, b, others, hkey, ha, hothers, rfl⟩
    exact ⟨_, others, ⟨name, hkey, b, ha, rfl⟩, hothers, rfl⟩

theorem exists_of_decode?_append {α β : Type} {f : α → Option β}
    {members : List (List StringPart × α)} {before after : List (String × β)}
    (h : decode? f members = some (before ++ after)) :
    ∃ front back, members = front ++ back ∧ decode? f front = some before ∧
      decode? f back = some after := by
  induction before generalizing members with
  | nil => exact ⟨[], members, rfl, rfl, h⟩
  | cons field before ih =>
    cases members with
    | nil => cases h
    | cons member members =>
      obtain ⟨name, b, others, hkey, ha, hothers, heq⟩ := decode?_cons_eq_some.1 h
      obtain ⟨rfl, rfl⟩ := List.cons.inj heq
      obtain ⟨front, back, rfl, hfront, hback⟩ := ih hothers
      exact ⟨member :: front, back, rfl,
        decode?_cons_eq_some.2 ⟨name, b, before, hkey, ha, hfront, rfl⟩, hback⟩

section

variable {α : Type} {limit : Nat} {item : List Char → Except Fault (α × List Char)}
  {value? : Tree → Option α}

/-- Whether a reader, on a text with fewer than `limit` characters, reads a tree and gives its
value. -/
def ReadsTree {ε : Type} (limit : Nat) (item : List Char → Except ε (α × List Char))
    (value? : Tree → Option α) : Prop :=
  ∀ ⦃text rest : List Char⦄ ⦃value : α⦄, text.length < limit →
    (item text = .ok (value, rest) ↔ ∃ tree, TreeText text tree rest ∧ value? tree = some value)

theorem length_skipBlanks_le : (skipBlanks text).length ≤ text.length :=
  afterBlanks_skipBlanks.length_le

theorem ReadsTree.map {ε β : Type} {read : List Char → Except ε (α × List Char)}
    (hread : ReadsTree limit read value?) (g : α → β) :
    ReadsTree limit (fun text => read text >>= fun (value, rest) => pure (g value, rest))
      fun tree => (value? tree).map g := by
  intro text rest b hlimit
  simp only [bind_eq_ok, pure_eq_ok, Prod.exists, Prod.mk.injEq, Option.map_eq_some_iff]
  constructor
  · rintro ⟨value, _, h, rfl, rfl⟩
    obtain ⟨tree, htree, hvalue⟩ := (hread hlimit).1 h
    exact ⟨tree, htree, value, hvalue, rfl⟩
  · rintro ⟨tree, htree, value, hvalue, rfl⟩
    exact ⟨value, rest, (hread hlimit).2 ⟨tree, htree, hvalue⟩, rfl, rfl⟩

theorem ReadsTree.afterBlanks {ε : Type} {read : List Char → Except ε (α × List Char)}
    (hread : ReadsTree limit read value?) :
    ReadsTree limit (fun text => read (skipBlanks text)) value? := by
  intro text rest value hlimit
  simp only [hread (Nat.lt_of_le_of_lt length_skipBlanks_le hlimit), treeText_skipBlanks_iff]

theorem nextItem_treeText {isFirst : Bool} {text₁ : List Char} {tree : Tree}
    (hcomma : Separated isFirst text text₁) (htree : TreeText text₁ tree rest) :
    nextItem isFirst text = .ok (true, skipBlanks text₁) := by
  obtain ⟨c, others, hskip, hc⟩ := htree.head
  refine nextItem_true.2 ⟨text₁, hcomma, rfl, c, others, hskip, ?_⟩
  rintro rfl
  exact absurd hc (by decide)

theorem ReadsTree.nextItem {ε : Type} {item : List Char → Except ε (α × List Char)} {isFirst : Bool}
    {value : α} (hitem : ReadsTree limit item value?) (hlimit : text.length < limit) :
    (∃ text₁, nextItem isFirst text = .ok (true, text₁) ∧ item text₁ = .ok (value, rest)) ↔
      ∃ text₁ tree, Separated isFirst text text₁ ∧ TreeText text₁ tree rest ∧
        value? tree = some value := by
  have hread : ∀ {text₁}, Separated isFirst text text₁ →
      (item (skipBlanks text₁) = .ok (value, rest) ↔
        ∃ tree, TreeText text₁ tree rest ∧ value? tree = some value) := by
    intro text₁ hcomma
    exact hitem.afterBlanks (Nat.lt_of_le_of_lt hcomma.length_le hlimit)
  constructor
  · rintro ⟨_, hnext, hvalue⟩
    obtain ⟨text₁, hcomma, rfl, -⟩ := nextItem_true.1 hnext
    obtain ⟨tree, htree, hvalue⟩ := (hread hcomma).1 hvalue
    exact ⟨text₁, tree, hcomma, htree, hvalue⟩
  · rintro ⟨text₁, tree, hcomma, htree, hvalue⟩
    exact ⟨_, nextItem_treeText hcomma htree, (hread hcomma).2 ⟨tree, htree, hvalue⟩⟩

theorem ReadsTree.readItems {done values : List α} {fuel : Nat} (hitem : ReadsTree limit item value?)
    (hlimit : text.length < limit) (hfuel : text.length < fuel) :
    readItems item done fuel text = .ok (values, rest) ↔
      ∃ trees others, ItemsText done.isEmpty text trees rest ∧ trees.mapM value? = some others ∧
        values = done.reverse ++ others := by
  induction fuel generalizing text done with
  | zero => omega
  | succ fuel ih =>
    rw [Json.readItems]
    constructor
    · intro h
      obtain ⟨⟨more, text₁⟩, hnext, h⟩ := bind_eq_ok.1 h
      cases more with
      | false =>
        obtain ⟨rest', hclose, rfl⟩ := nextItem_false.1 hnext
        cases h
        exact ⟨[], [], .close hclose, rfl, by simp⟩
      | true =>
        obtain ⟨⟨value, text₂⟩, hvalue, h⟩ := bind_eq_ok.1 h
        obtain ⟨text₁, tree, hcomma, htree, hvalue⟩ := (hitem.nextItem hlimit).1 ⟨_, hnext, hvalue⟩
        have := hcomma.length_le
        have := htree.length_lt
        obtain ⟨trees, others, htrees, hothers, rfl⟩ := (ih (by omega) (by omega)).1 h
        refine ⟨tree :: trees, value :: others, .item hcomma htree htrees, ?_, by simp⟩
        exact mapM_cons_eq_some.2 ⟨value, others, hvalue, hothers, rfl⟩
    · rintro ⟨trees, others, htrees, hvalues, rfl⟩
      cases htrees with
      | close hclose =>
        cases hvalues
        refine bind_eq_ok.2 ⟨_, nextItem_false.2 ⟨rest, hclose, rfl⟩, ?_⟩
        simp [pure, Except.pure]
      | item hcomma htree htrees =>
        obtain ⟨value, others, hvalue, hothers, rfl⟩ := mapM_cons_eq_some.1 hvalues
        have := hcomma.length_le
        have := htree.length_lt
        obtain ⟨text₁, hnext, hread⟩ := (hitem.nextItem hlimit).2 ⟨_, _, hcomma, htree, hvalue⟩
        refine bind_eq_ok.2 ⟨_, hnext, bind_eq_ok.2 ⟨_, hread, ?_⟩⟩
        exact (ih (by omega) (by omega)).2 ⟨_, others, htrees, hothers, by simp⟩

theorem ReadsTree.readMembers {done values : List (String × α)} {fuel : Nat}
    (hitem : ReadsTree limit item value?) (hlimit : text.length < limit)
    (hfuel : text.length < fuel) :
    readMembers item done fuel text = .ok (values, rest) ↔
      ∃ members others, MembersText done.isEmpty text members rest ∧
        decode? value? members = some others ∧ values = done.reverse ++ others := by
  -- every member takes characters, so the fuel outlasts the text
  induction fuel generalizing text done with
  | zero => omega
  | succ fuel ih =>
    rw [Json.readMembers]
    constructor
    · intro h
      obtain ⟨⟨more, text₁⟩, hnext, h⟩ := bind_eq_ok.1 h
      cases more with
      | false =>
        obtain ⟨rest', hclose, rfl⟩ := nextKey_false.1 hnext
        cases h
        exact ⟨[], [], .close hclose, rfl, by simp⟩
      | true =>
        obtain ⟨⟨name, text₂⟩, hname, h⟩ := bind_eq_ok.1 h
        obtain ⟨text₃, hcolon, h⟩ := bind_eq_ok.1 h
        obtain ⟨⟨value, text₄⟩, hvalue, h⟩ := bind_eq_ok.1 h
        obtain ⟨key, hlabel, hkey⟩ := labelText_iff.1 ⟨_, _, hnext, hname, hcolon⟩
        have := hlabel.length_lt
        obtain ⟨tree, htree, hvalue⟩ := (hitem (by omega)).1 hvalue
        have := htree.length_lt
        obtain ⟨members, others, hmembers, hothers, rfl⟩ := (ih (by omega) (by omega)).1 h
        refine ⟨(key, tree) :: members, (name, value) :: others, .member hlabel htree hmembers, ?_,
          by simp⟩
        exact decode?_cons_eq_some.2 ⟨name, value, others, hkey, hvalue, hothers, rfl⟩
    · rintro ⟨members, others, hmembers, hvalues, rfl⟩
      cases hmembers with
      | close hclose =>
        cases hvalues
        refine bind_eq_ok.2 ⟨_, nextKey_false.2 ⟨rest, hclose, rfl⟩, ?_⟩
        simp [pure, Except.pure]
      | member hlabel htree hmembers =>
        obtain ⟨name, value, others, hkey, hvalue, hothers, rfl⟩ := decode?_cons_eq_some.1 hvalues
        have := hlabel.length_lt
        have := htree.length_lt
        obtain ⟨text₁, text₂, hnext, hname, hcolon⟩ := labelText_iff.2 ⟨_, hlabel, hkey⟩
        have hread := (hitem (by omega)).2 ⟨_, htree, hvalue⟩
        refine bind_eq_ok.2 ⟨_, hnext, bind_eq_ok.2 ⟨_, hname, bind_eq_ok.2 ⟨_, hcolon,
          bind_eq_ok.2 ⟨_, hread, ?_⟩⟩⟩⟩
        exact (ih (by omega) (by omega)).2 ⟨_, others, hmembers, hothers, by simp⟩

end

-- ---------------------------------------------------------------------------
-- Values
-- ---------------------------------------------------------------------------

theorem length_of_skipBlanks {c : Char} {text₁ : List Char} (hskip : skipBlanks text = c :: text₁) :
    text₁.length < text.length := by
  have hlength : (skipBlanks text).length ≤ text.length := length_skipBlanks_le
  rwa [hskip] at hlength

theorem readsTree_readValue (limit room : Nat) :
    ReadsTree limit (readValue limit room) (Tree.value? room) := by
  -- on the room: the parts of an array or object are read with less of it
  induction room with
  | zero =>
    intro text rest value hlimit
    unfold readValue
    split
    · rename_i text₁ hskip
      refine ⟨fun h => (by cases h), ?_⟩
      rintro ⟨tree, htree, hvalue⟩
      obtain ⟨items, rfl, -⟩ := (treeText_array_iff hskip).1 htree
      simp [Tree.value?] at hvalue
    · rename_i text₁ hskip
      refine ⟨fun h => (by cases h), ?_⟩
      rintro ⟨tree, htree, hvalue⟩
      obtain ⟨members, rfl, -⟩ := (treeText_object_iff hskip).1 htree
      simp [Tree.value?] at hvalue
    · rename_i harray hobject
      simp [treeText_scalar_iff harray hobject, readScalar_eq_ok 0]
  | succ room ih =>
    intro text rest value hlimit
    unfold readValue
    split
    · rename_i text₁ hskip
      have hlength := Nat.lt_trans (length_of_skipBlanks hskip) hlimit
      constructor
      · intro h
        obtain ⟨⟨values, rest'⟩, hitems, h⟩ := bind_eq_ok.1 h
        cases h
        obtain ⟨items, others, hitems, hvalues, rfl⟩ := (ih.readItems hlength hlength).1 hitems
        exact ⟨_, (treeText_array_iff hskip).2 ⟨items, rfl, hitems⟩, by simp [Tree.value?, hvalues]⟩
      · rintro ⟨tree, htree, hvalue⟩
        obtain ⟨items, rfl, hitems⟩ := (treeText_array_iff hskip).1 htree
        simp only [Tree.value?, Option.map_eq_some_iff] at hvalue
        obtain ⟨values, hvalues, rfl⟩ := hvalue
        have hread : readItems (readValue limit room) [] limit text₁ = .ok (values, rest) :=
          (ih.readItems hlength hlength).2 ⟨items, values, hitems, hvalues, rfl⟩
        exact bind_eq_ok.2 ⟨_, hread, rfl⟩
    · rename_i text₁ hskip
      have hlength := Nat.lt_trans (length_of_skipBlanks hskip) hlimit
      constructor
      · intro h
        obtain ⟨⟨values, rest'⟩, hmembers, h⟩ := bind_eq_ok.1 h
        cases h
        obtain ⟨members, others, hmembers, hvalues, rfl⟩ :=
          (ih.readMembers hlength hlength).1 hmembers
        exact ⟨_, (treeText_object_iff hskip).2 ⟨members, rfl, hmembers⟩,
          by simp [Tree.value?, hvalues]⟩
      · rintro ⟨tree, htree, hvalue⟩
        obtain ⟨members, rfl, hmembers⟩ := (treeText_object_iff hskip).1 htree
        simp only [Tree.value?, Option.map_eq_some_iff] at hvalue
        obtain ⟨values, hvalues, rfl⟩ := hvalue
        have hread : readMembers (readValue limit room) [] limit text₁ = .ok (values, rest) :=
          (ih.readMembers hlength hlength).2 ⟨members, values, hmembers, hvalues, rfl⟩
        exact bind_eq_ok.2 ⟨_, hread, rfl⟩
    · rename_i harray hobject
      simp [treeText_scalar_iff harray hobject, readScalar_eq_ok (room + 1)]

-- ---------------------------------------------------------------------------
-- Whole texts
-- ---------------------------------------------------------------------------

theorem readText_eq_ok {α : Type} {read : Nat → List Char → Except Fault (α × List Char)}
    {source : String} {value : α} :
    readText read source = .ok value ↔
      ∃ rest, read (itemLimit source.toList) source.toList = .ok (value, rest) ∧
        AfterBlanks rest [] := by
  simp only [readText, mapError_eq_ok, bind_eq_ok, pure_eq_ok, readEnd_eq_ok, Prod.exists]
  constructor
  · rintro ⟨_, rest, hread, _, hend, rfl⟩
    exact ⟨rest, hread, hend⟩
  · rintro ⟨rest, hread, hend⟩
    exact ⟨value, rest, hread, (), hend, rfl⟩

theorem ReadsTree.readText {α : Type} {source : String} {value : α} {value? : Tree → Option α}
    {read : Nat → List Char → Except Fault (α × List Char)}
    (hread : ReadsTree (itemLimit source.toList) (read (itemLimit source.toList)) value?) :
    readText read source = .ok value ↔
      ∃ tree, IsJson source.toList tree ∧ value? tree = some value := by
  simp only [readText_eq_ok, hread (Nat.lt_succ_self _)]
  constructor
  · rintro ⟨rest, ⟨tree, htree, hvalue⟩, hend⟩
    exact ⟨tree, ⟨rest, htree, hend⟩, hvalue⟩
  · rintro ⟨tree, ⟨rest, htree, hend⟩, hvalue⟩
    exact ⟨rest, ⟨tree, htree, hvalue⟩, hend⟩

theorem Value.ofText_eq_ok {source : String} {value : Value} :
    Value.ofText source = .ok value ↔
      ∃ tree, IsJson source.toList tree ∧ tree.value? maximalDepth = some value :=
  (readsTree_readValue _ maximalDepth).readText

end ContentTypes.Json
