import ContentTypes.Proofs.Json.Values

/-!
# Passing over values

A value is passed over exactly if it is a tree of the grammar, however deep: `skipValue_eq_ok`. What
the arrays and objects that are open still need is `Closes`.
-/

namespace ContentTypes.Json

variable {opened : List Opened} {inner : Opened} {isFirst : Bool} {text rest : List Char}

-- ---------------------------------------------------------------------------
-- What is open
-- ---------------------------------------------------------------------------

def Opened.Parts (isFirst : Bool) (text rest : List Char) : Opened → Prop
  | .list => ∃ items, ItemsText isFirst text items rest
  | .object => ∃ members, MembersText isFirst text members rest

/-- Whether a text that follows a value ends all that is open, the innermost first. -/
def Closes : List Opened → List Char → List Char → Prop
  | [], text, rest => text = rest
  | inner :: opened, text, rest => ∃ text₁, inner.Parts false text text₁ ∧ Closes opened text₁ rest

def Ahead.Ends (opened : List Opened) (text rest : List Char) : Ahead → Prop
  | .value => ∃ tree text₁, TreeText text tree text₁ ∧ Closes opened text₁ rest
  | .afterOpening =>
    match opened with
    | [] => text = rest
    | inner :: opened => ∃ text₁, inner.Parts true text text₁ ∧ Closes opened text₁ rest
  | .afterValue => Closes opened text rest

theorem Opened.isBlank_closer : isBlank inner.closer = false := by
  cases inner <;> decide

theorem Opened.Parts.close (h : AfterBlanks text (inner.closer :: rest)) :
    inner.Parts isFirst text rest := by
  cases inner with
  | list => exact ⟨[], .close h⟩
  | object => exact ⟨[], .close h⟩

theorem labelText_true_iff {key : List StringPart} :
    LabelText true text key rest ↔
      ∃ text₁ text₂, skipBlanks text = '"' :: text₁ ∧ StringText text₁ key text₂ ∧
        AfterBlanks text₂ (':' :: rest) := by
  simp [LabelText, Separated, afterBlanks_cons_iff (c := '"') (by decide)]

theorem labelText_false_iff {key : List StringPart} :
    LabelText false text key rest ↔
      ∃ text₁, skipBlanks text = ',' :: text₁ ∧ LabelText true text₁ key rest := by
  simp [LabelText, Separated, afterBlanks_cons_iff (c := ',') (by decide)]

theorem Opened.skipLabel_object :
    object.skipLabel text = .ok rest ↔ ∃ key, LabelText true text key rest := by
  simp only [labelText_true_iff]
  constructor
  · intro h
    unfold Opened.skipLabel at h
    dsimp only at h
    split at h
    · cases h
    · rename_i text₁ hquote
      obtain ⟨text₂, hkey, h⟩ := bind_eq_ok.1 h
      obtain ⟨key, hkey⟩ := skipString_eq_ok.1 hkey
      exact ⟨key, text₁, text₂, hquote, hkey, readColon_eq_ok.1 h⟩
    · cases h
  · rintro ⟨key, text₁, text₂, hquote, hkey, hcolon⟩
    simp only [Opened.skipLabel, hquote]
    exact bind_eq_ok.2 ⟨_, skipString_eq_ok.2 ⟨_, hkey⟩, readColon_eq_ok.2 hcolon⟩

theorem Opened.Parts.first {text₁ text₂ : List Char} {tree : Tree}
    (hlabel : inner.skipLabel (skipBlanks text) = .ok text₁) (htree : TreeText text₁ tree text₂)
    (hothers : inner.Parts false text₂ rest) : inner.Parts true text rest := by
  cases inner with
  | list =>
    obtain ⟨items, hitems⟩ := hothers
    cases hlabel
    exact ⟨_, .item rfl (treeText_skipBlanks_iff.1 htree) hitems⟩
  | object =>
    obtain ⟨members, hmembers⟩ := hothers
    obtain ⟨key, hlabel⟩ := Opened.skipLabel_object.1 hlabel
    rw [labelText_true_iff, skipBlanks_skipBlanks, ← labelText_true_iff] at hlabel
    exact ⟨_, .member hlabel htree hmembers⟩

theorem Opened.Parts.next {text₁ text₂ text₃ : List Char} {tree : Tree}
    (hcomma : skipBlanks text = ',' :: text₁) (hlabel : inner.skipLabel text₁ = .ok text₂)
    (htree : TreeText text₂ tree text₃) (hothers : inner.Parts false text₃ rest) :
    inner.Parts false text rest := by
  cases inner with
  | list =>
    obtain ⟨items, hitems⟩ := hothers
    cases hlabel
    exact ⟨_, .item (separated_false_iff.2 hcomma) htree hitems⟩
  | object =>
    obtain ⟨members, hmembers⟩ := hothers
    obtain ⟨key, hlabel⟩ := Opened.skipLabel_object.1 hlabel
    exact ⟨_, .member (labelText_false_iff.2 ⟨_, hcomma, hlabel⟩) htree hmembers⟩

-- ---------------------------------------------------------------------------
-- What is passed over is a tree
-- ---------------------------------------------------------------------------

theorem ends_of_skipFrom {steps : Nat} {ahead : Ahead}
    (h : skipFrom steps ahead opened text = .ok rest) : ahead.Ends opened text rest := by
  -- by the steps of the skipping: what ends all that is open after a step did so before it
  fun_induction skipFrom steps ahead opened text with
  | case1 | case6 | case9 | case12 => cases h
  | case2 steps opened text text₁ hskip ih =>
    obtain ⟨text₂, ⟨items, hitems⟩, hcloses⟩ := ih h
    exact ⟨_, text₂, (treeText_array_iff hskip).2 ⟨items, rfl, hitems⟩, hcloses⟩
  | case3 steps opened text text₁ hskip ih =>
    obtain ⟨text₂, ⟨members, hmembers⟩, hcloses⟩ := ih h
    exact ⟨_, text₂, (treeText_object_iff hskip).2 ⟨members, rfl, hmembers⟩, hcloses⟩
  | case4 steps opened text harray hobject ih =>
    obtain ⟨text₁, hscalar, h⟩ := bind_eq_ok.1 h
    obtain ⟨tree, htree⟩ := skipScalar_eq_ok.1 hscalar
    exact ⟨tree, text₁, (treeText_scalar_iff harray hobject).2 htree, ih text₁ h⟩
  | case5 steps ahead text hahead =>
    cases h
    cases ahead with
    | value => exact absurd rfl hahead
    | afterOpening | afterValue => exact rfl
  | case7 steps inner opened text text₁ hskip ih | case10 steps inner opened text text₁ hskip ih =>
    exact ⟨text₁, .close ((afterBlanks_cons_iff inner.isBlank_closer).2 hskip), ih h⟩
  | case8 steps inner opened text c others hskip hclose ih =>
    obtain ⟨text₁, hlabel, h⟩ := bind_eq_ok.1 h
    obtain ⟨tree, text₂, htree, text₃, hothers, hcloses⟩ := ih text₁ h
    rw [← hskip] at hlabel
    exact ⟨text₃, .first hlabel htree hothers, hcloses⟩
  | case11 steps inner opened text text₁ hskip hclose ih =>
    obtain ⟨text₂, hlabel, h⟩ := bind_eq_ok.1 h
    obtain ⟨tree, text₃, htree, text₄, hothers, hcloses⟩ := ih text₂ h
    exact ⟨text₄, .next hskip hlabel htree hothers, hcloses⟩

-- ---------------------------------------------------------------------------
-- Trees are passed over
-- ---------------------------------------------------------------------------

def Ahead.ofPart (isFirst : Bool) : Ahead :=
  if isFirst then .afterOpening else .afterValue

theorem skipFrom_value_skipBlanks {steps : Nat} :
    skipFrom (steps + 1) .value opened (skipBlanks text) = skipFrom (steps + 1) .value opened text := by
  simp only [skipFrom, skipBlanks_skipBlanks]

theorem skipFrom_scalar {steps : Nat} {tree : Tree} (h : ScalarText (skipBlanks text) tree rest) :
    skipFrom (steps + 1) .value opened text = skipFrom steps .afterValue opened rest := by
  obtain ⟨c, others, hskip, hc⟩ := h.head
  have hvalue : skipScalar (skipBlanks text) = .ok rest := skipScalar_eq_ok.2 ⟨tree, h⟩
  rw [skipFrom]
  split
  · rename_i harray
    cases hskip.symm.trans harray
    exact absurd hc (by decide)
  · rename_i hobject
    cases hskip.symm.trans hobject
    exact absurd hc (by decide)
  · rw [hvalue]
    rfl

theorem skipFrom_close {steps : Nat} (h : AfterBlanks text (inner.closer :: rest)) :
    skipFrom (steps + 1) (.ofPart isFirst) (inner :: opened) text =
      skipFrom steps .afterValue opened rest := by
  rw [afterBlanks_cons_iff inner.isBlank_closer] at h
  cases isFirst <;> simp [Ahead.ofPart, skipFrom, h]

theorem skipFrom_first {steps : Nat} {c : Char} {text₁ : List Char}
    (hskip : skipBlanks text = c :: text₁) (hclose : c ≠ inner.closer) :
    skipFrom (steps + 1) (.ofPart true) (inner :: opened) text =
      inner.skipLabel (c :: text₁) >>= skipFrom steps .value (inner :: opened) := by
  simp only [Ahead.ofPart, if_true, skipFrom, hskip, if_neg hclose]

theorem skipFrom_next {steps : Nat} {text₁ : List Char} (hskip : skipBlanks text = ',' :: text₁) :
    skipFrom (steps + 1) (.ofPart false) (inner :: opened) text =
      inner.skipLabel text₁ >>= skipFrom steps .value (inner :: opened) := by
  have hclose : ',' ≠ inner.closer := by cases inner <;> decide
  simp only [Ahead.ofPart, Bool.false_eq_true, if_false, skipFrom, hskip, if_neg hclose, if_true]

theorem skipFrom_item {steps : Nat} {text₁ : List Char} {tree : Tree}
    (hcomma : Separated isFirst text text₁) (htree : TreeText text₁ tree rest) :
    skipFrom (steps + 1 + 1) (.ofPart isFirst) (.list :: opened) text =
      skipFrom (steps + 1) .value (.list :: opened) text₁ := by
  cases isFirst with
  | true =>
    cases hcomma
    obtain ⟨c, others, hskip, hc⟩ := htree.head
    have hclose : c ≠ Opened.list.closer := by
      rintro rfl
      exact absurd hc (by decide)
    rw [skipFrom_first hskip hclose, ← skipFrom_value_skipBlanks, hskip]
    rfl
  | false =>
    rw [skipFrom_next (separated_false_iff.1 hcomma)]
    rfl

theorem skipFrom_member {steps : Nat} {key : List StringPart}
    (hlabel : LabelText isFirst text key rest) :
    skipFrom (steps + 1) (.ofPart isFirst) (.object :: opened) text =
      skipFrom steps .value (.object :: opened) rest := by
  cases isFirst with
  | true =>
    obtain ⟨text₁, text₂, hquote, hkey, hcolon⟩ := labelText_true_iff.1 hlabel
    rw [skipFrom_first hquote (by decide), ← hquote]
    have hskip : Opened.object.skipLabel (skipBlanks text) = .ok rest := by
      refine Opened.skipLabel_object.2 ⟨key, labelText_true_iff.2 ⟨text₁, text₂, ?_, hkey, hcolon⟩⟩
      rw [skipBlanks_skipBlanks, hquote]
    rw [hskip]
    rfl
  | false =>
    obtain ⟨text₁, hcomma, hlabel⟩ := labelText_false_iff.1 hlabel
    rw [skipFrom_next hcomma, Opened.skipLabel_object.2 ⟨key, hlabel⟩]
    rfl

mutual

/-- Two steps for a character suffice. -/
theorem TreeText.skipFrom {text rest : List Char} {tree : Tree} :
    TreeText text tree rest → ∃ k, k + 2 + 2 * rest.length ≤ 2 * text.length ∧
      ∀ steps opened, skipFrom (steps + (k + 1)) .value opened text =
        Json.skipFrom steps .afterValue opened rest
  | .scalar hblanks hscalar => by
    refine ⟨0, ?_, ?_⟩
    · have := hscalar.length_lt
      have := hblanks.length_le
      omega
    · exact fun steps opened => skipFrom_scalar (ScalarText.afterBlanks_iff.1 ⟨_, hblanks, hscalar⟩)
  | .array hopen hitems => by
    obtain ⟨k, hk, hsteps⟩ := hitems.skipFrom
    have hlength := hopen.length_le
    simp only [List.length_cons] at hlength
    refine ⟨k, by omega, fun steps opened => ?_⟩
    rw [← hsteps, ← Nat.add_assoc, Json.skipFrom, (afterBlanks_cons_iff (by decide)).1 hopen]
    rfl
  | .object hopen hmembers => by
    obtain ⟨k, hk, hsteps⟩ := hmembers.skipFrom
    have hlength := hopen.length_le
    simp only [List.length_cons] at hlength
    refine ⟨k, by omega, fun steps opened => ?_⟩
    rw [← hsteps, ← Nat.add_assoc, Json.skipFrom, (afterBlanks_cons_iff (by decide)).1 hopen]
    rfl

theorem ItemsText.skipFrom {isFirst : Bool} {text rest : List Char} {items : List Tree} :
    ItemsText isFirst text items rest → ∃ k, k + 1 + 2 * rest.length ≤ 2 * text.length ∧
      ∀ steps opened, Json.skipFrom (steps + k) (.ofPart isFirst) (.list :: opened) text =
        Json.skipFrom steps .afterValue opened rest
  | .close hclose => by
    refine ⟨1, ?_, fun steps opened => skipFrom_close hclose⟩
    have := hclose.length_le
    simp only [List.length_cons] at this
    omega
  | .item hcomma htree hothers => by
    obtain ⟨k, hk, hsteps⟩ := htree.skipFrom
    obtain ⟨k', hk', hsteps'⟩ := hothers.skipFrom
    have := hcomma.length_le
    refine ⟨k' + (k + 1) + 1, by omega, fun steps opened => ?_⟩
    rw [← Nat.add_assoc, ← Nat.add_assoc]
    calc
      _ = Json.skipFrom (steps + k' + (k + 1)) .value (.list :: opened) _ := skipFrom_item hcomma htree
      _ = Json.skipFrom (steps + k') .afterValue (.list :: opened) _ := hsteps _ _
      _ = _ := hsteps' _ _

theorem MembersText.skipFrom {isFirst : Bool} {text rest : List Char}
    {members : List (List StringPart × Tree)} :
    MembersText isFirst text members rest → ∃ k, k + 1 + 2 * rest.length ≤ 2 * text.length ∧
      ∀ steps opened, Json.skipFrom (steps + k) (.ofPart isFirst) (.object :: opened) text =
        Json.skipFrom steps .afterValue opened rest
  | .close hclose => by
    refine ⟨1, ?_, fun steps opened => skipFrom_close hclose⟩
    have := hclose.length_le
    simp only [List.length_cons] at this
    omega
  | .member hlabel htree hothers => by
    obtain ⟨k, hk, hsteps⟩ := htree.skipFrom
    obtain ⟨k', hk', hsteps'⟩ := hothers.skipFrom
    have := hlabel.length_lt
    refine ⟨k' + (k + 1) + 1, by omega, fun steps opened => ?_⟩
    rw [← Nat.add_assoc, ← Nat.add_assoc]
    calc
      _ = Json.skipFrom (steps + k' + (k + 1)) .value (.object :: opened) _ := skipFrom_member hlabel
      _ = Json.skipFrom (steps + k') .afterValue (.object :: opened) _ := hsteps _ _
      _ = _ := hsteps' _ _

end

theorem skipValue_eq_ok {limit : Nat} (hlimit : text.length < limit) :
    skipValue limit text = .ok rest ↔ ∃ tree, TreeText text tree rest := by
  constructor
  · intro h
    obtain ⟨tree, text₁, htree, rfl⟩ := ends_of_skipFrom h
    exact ⟨tree, htree⟩
  · rintro ⟨tree, htree⟩
    obtain ⟨k, hk, hsteps⟩ := htree.skipFrom
    obtain ⟨spare, hspare⟩ : ∃ spare, 3 * limit = spare + 1 + (k + 1) :=
      ⟨3 * limit - (k + 2), by omega⟩
    rw [skipValue, hspare, hsteps]
    rfl

end ContentTypes.Json
