import ContentTypes.Proofs.Settings.Layers

/-!
# Texts that look like something else

A text of the environment is taken for a boolean, an integer or a number if it looks like one, in this
order, and only otherwise for a text. Its value is then that of the text (`variableValue_of_looksLike`).
Only texts of letters, digits, signs and points look like something else.
-/

namespace ContentTypes.Settings

-- ---------------------------------------------------------------------------
-- What texts look like
-- ---------------------------------------------------------------------------

variable {text : String}

/-- The words for true and false, in any case. -/
def IsWord (text : String) (value : Bool) : Prop :=
  text.toList.map Char.toLower = (toString value).toList

/-- The decimal numerals of the integers of 64 bits, with or without a sign, zeros in front included. -/
inductive IsNumeral (text : String) : Int → Prop
  | positive {digits : List Char} (sign : text.toList = digits ∨ text.toList = '+' :: digits)
    (nonempty : digits ≠ []) (digit : ∀ c ∈ digits, c.isDigit = true)
    (small : Nat.ofDigitChars 10 digits 0 < Integer64.signedLimit) :
    IsNumeral text (Nat.ofDigitChars 10 digits 0)
  | negative {digits : List Char} (sign : text.toList = '-' :: digits)
    (nonempty : digits ≠ []) (digit : ∀ c ∈ digits, c.isDigit = true)
    (small : Nat.ofDigitChars 10 digits 0 ≤ Integer64.signedLimit) :
    IsNumeral text (-Nat.ofDigitChars 10 digits 0)

inductive Scalar where
  | boolean (value : Bool)
  | integer (value : Int)
  | number (value : Binary64)

namespace Scalar

def written : Scalar → String
  | boolean value => toString value
  | integer value => toString value
  | number value => value.positional

def found : Scalar → Found
  | boolean value => .boolean value
  | integer value => .integer value
  | number value => .float value

def setting (origin : Origin) : Scalar → Setting
  | boolean value => .boolean origin value
  | integer value => .integer origin value
  | number value => .float origin value

end Scalar

/-- What a text looks like: a boolean, or else an integer, or else a number. Others are texts. -/
inductive LooksLike (text : String) : Scalar → Prop
  | boolean {value : Bool} (word : IsWord text value) : LooksLike text (.boolean value)
  | integer {value : Int} (noWord : ∀ value, ¬IsWord text value) (numeral : IsNumeral text value) :
    LooksLike text (.integer value)
  | number {value : Binary64} (noWord : ∀ value, ¬IsWord text value)
    (noNumeral : ∀ value, ¬IsNumeral text value) (read : Binary64.ofText? text = some value) :
    LooksLike text (.number value)

variable {scalar : Scalar}

theorem booleanOfText?_eq_some {value : Bool} :
    booleanOfText? text = some value ↔ IsWord text value := by
  unfold booleanOfText? IsWord
  constructor
  · intro h
    split at h
    · rename_i hword
      obtain rfl := Option.some.inj h
      exact hword
    · rename_i hword
      obtain rfl := Option.some.inj h
      exact hword
    · cases h
  · intro h
    rw [h]
    cases value <;> rfl

theorem numberOf_eq (digits : List Char) : Binary64.numberOf digits = Nat.ofDigitChars 10 digits 0 := by
  simp only [Binary64.numberOf, Nat.ofDigitChars, Nat.mul_comm]

theorem splitSign_cases (text : List Char) :
    (∃ rest, text = '+' :: rest ∧ Binary64.splitSign text = (false, rest)) ∨
    (∃ rest, text = '-' :: rest ∧ Binary64.splitSign text = (true, rest)) ∨
      Binary64.splitSign text = (false, text) := by
  unfold Binary64.splitSign
  split
  · exact .inl ⟨_, rfl, rfl⟩
  · exact .inr (.inl ⟨_, rfl, rfl⟩)
  · exact .inr (.inr rfl)

theorem splitSign_of_isDigit {digits : List Char} (h : ∀ c ∈ digits, c.isDigit = true) :
    Binary64.splitSign digits = (false, digits) := by
  obtain ⟨rest, rfl, -⟩ | ⟨rest, rfl, -⟩ | hnone := splitSign_cases digits
  · exact absurd (h '+' List.mem_cons_self) (by decide)
  · exact absurd (h '-' List.mem_cons_self) (by decide)
  · exact hnone

theorem integerOfText?_of_splitSign {negative : Bool} {digits : List Char}
    (h : Binary64.splitSign text.toList = (negative, digits)) (value : Int) :
    integerOfText? text = some value ↔ digits ≠ [] ∧ (∀ c ∈ digits, c.isDigit = true) ∧
      Integer64.ofSize? negative (Nat.ofDigitChars 10 digits 0) = some value := by
  simp only [integerOfText?, h, numberOf_eq, List.all_eq_true]
  split <;> rename_i hform
  · refine iff_of_false nofun ?_
    rintro ⟨hne, hdigit, -⟩
    exact hform.elim hne fun hnot => hnot hdigit
  · obtain ⟨hne, hdigit⟩ := not_or.1 hform
    rw [and_iff_right hne, and_iff_right (not_not.1 hdigit)]

theorem ofSize?_positive {size : Nat} {value : Int} :
    Integer64.ofSize? false size = some value ↔ size < Integer64.signedLimit ∧ value = size := by
  have hsize : Integer64.ofSize? false size =
    if size < Integer64.signedLimit then some (size : Int) else none := rfl
  by_cases h : size < Integer64.signedLimit
  · rw [hsize, if_pos h, Option.some.injEq, and_iff_right h, eq_comm]
  · rw [hsize, if_neg h]
    exact iff_of_false nofun fun hvalue => h hvalue.1

theorem ofSize?_negative {size : Nat} {value : Int} :
    Integer64.ofSize? true size = some value ↔ size ≤ Integer64.signedLimit ∧ value = -size := by
  have hsize : Integer64.ofSize? true size =
    if size ≤ Integer64.signedLimit then some (-size : Int) else none := rfl
  by_cases h : size ≤ Integer64.signedLimit
  · rw [hsize, if_pos h, Option.some.injEq, and_iff_right h, eq_comm]
  · rw [hsize, if_neg h]
    exact iff_of_false nofun fun hvalue => h hvalue.1

theorem integerOfText?_eq_some {value : Int} :
    integerOfText? text = some value ↔ IsNumeral text value := by
  constructor
  · intro h
    obtain ⟨rest, htext, hsplit⟩ | ⟨rest, htext, hsplit⟩ | hsplit := splitSign_cases text.toList
    all_goals obtain ⟨hne, hdigit, hsize⟩ := (integerOfText?_of_splitSign hsplit value).1 h
    · obtain ⟨hsmall, rfl⟩ := ofSize?_positive.1 hsize
      exact .positive (.inr htext) hne hdigit hsmall
    · obtain ⟨hsmall, rfl⟩ := ofSize?_negative.1 hsize
      exact .negative htext hne hdigit hsmall
    · obtain ⟨hsmall, rfl⟩ := ofSize?_positive.1 hsize
      exact .positive (.inl rfl) hne hdigit hsmall
  · intro h
    cases h with
    | @positive digits sign nonempty digit small =>
      have hsplit : Binary64.splitSign text.toList = (false, digits) := by
        rcases sign with htext | htext
        · rw [htext]
          exact splitSign_of_isDigit digit
        · rw [htext]
          rfl
      exact (integerOfText?_of_splitSign hsplit _).2
        ⟨nonempty, digit, ofSize?_positive.2 ⟨small, rfl⟩⟩
    | @negative digits sign nonempty digit small =>
      have hsplit : Binary64.splitSign text.toList = (true, digits) := by
        rw [sign]
        rfl
      exact (integerOfText?_of_splitSign hsplit _).2
        ⟨nonempty, digit, ofSize?_negative.2 ⟨small, rfl⟩⟩

theorem booleanOfText?_eq_none (h : ∀ value, ¬IsWord text value) : booleanOfText? text = none :=
  Option.eq_none_iff_forall_ne_some.2 fun value hvalue => h value (booleanOfText?_eq_some.1 hvalue)

theorem integerOfText?_eq_none (h : ∀ value, ¬IsNumeral text value) : integerOfText? text = none :=
  Option.eq_none_iff_forall_ne_some.2 fun value hvalue => h value (integerOfText?_eq_some.1 hvalue)

theorem isPlain_of_not_looksLike (h : ∀ scalar, ¬LooksLike text scalar) : IsPlain text := by
  have hword (value : Bool) : ¬IsWord text value := fun hword => h _ (.boolean hword)
  have hnumeral (value : Int) : ¬IsNumeral text value := fun hnumeral => h _ (.integer hword hnumeral)
  refine ⟨booleanOfText?_eq_none hword, integerOfText?_eq_none hnumeral, ?_⟩
  exact Option.eq_none_iff_forall_ne_some.2 fun value hread => h _ (.number hword hnumeral hread)

theorem variableValue_of_looksLike (h : LooksLike text scalar) (key : String) :
    variableValue key text = scalar.setting (some environmentName) := by
  cases h with
  | boolean word => rw [variableValue, booleanOfText?_eq_some.2 word, Scalar.setting]
  | integer noWord numeral =>
    rw [variableValue, booleanOfText?_eq_none noWord, integerOfText?_eq_some.2 numeral, Scalar.setting]
  | number noWord noNumeral read =>
    rw [variableValue, booleanOfText?_eq_none noWord, integerOfText?_eq_none noNumeral, read,
      Scalar.setting]

theorem looksLike_integer {value : Int} (hboolean : booleanOfText? text = none)
    (hinteger : integerOfText? text = some value) : LooksLike text (.integer value) := by
  refine .integer (fun other hword => ?_) (integerOfText?_eq_some.1 hinteger)
  rw [booleanOfText?_eq_some.2 hword] at hboolean
  cases hboolean

theorem LooksLike.unique {other : Scalar} (h : LooksLike text scalar) (h' : LooksLike text other) :
    scalar = other := by
  have hsetting := (variableValue_of_looksLike h "").symm.trans (variableValue_of_looksLike h' "")
  cases scalar <;> cases other <;> simp_all [Scalar.setting]

-- ---------------------------------------------------------------------------
-- The characters of booleans and numbers
-- ---------------------------------------------------------------------------

/-- Whether a character may stand in a text that looks like a boolean or a number. -/
def IsScalarChar (c : Char) : Prop :=
  c.isAlphanum = true ∨ c = '+' ∨ c = '-' ∨ c = '.'

theorem isScalarChar_of_isDigit {c : Char} (h : c.isDigit = true) : IsScalarChar c :=
  .inl (by simp [Char.isAlphanum, h])

theorem isScalarChar_of_toLower {c : Char} (h : c.toLower.isAlphanum = true) : IsScalarChar c := by
  refine .inl ?_
  unfold Char.toLower at h
  split at h
  · rename_i hrange
    have hupper : c.isUpper = true := decide_eq_true hrange
    have hkinds : c.isAlphanum = (c.isUpper || c.isLower || c.isDigit) := rfl
    simp [hkinds, hupper]
  · exact h

theorem forall_isScalarChar_of_word {chars word : List Char} (h : chars.map Char.toLower = word)
    (hword : word.all Char.isAlphanum = true) : ∀ c ∈ chars, IsScalarChar c := fun c hc =>
  isScalarChar_of_toLower (List.all_eq_true.1 hword c.toLower (h ▸ List.mem_map_of_mem hc))

theorem forall_isScalarChar_of_splitSign {chars digits : List Char} {negative : Bool}
    (h : Binary64.splitSign chars = (negative, digits)) (hdigits : ∀ c ∈ digits, IsScalarChar c) :
    ∀ c ∈ chars, IsScalarChar c := by
  obtain ⟨rest, rfl, hsplit⟩ | ⟨rest, rfl, hsplit⟩ | hsplit := splitSign_cases chars
  all_goals obtain ⟨-, rfl⟩ := Prod.mk.inj (hsplit.symm.trans h)
  · exact List.forall_mem_cons.2 ⟨.inr (.inl rfl), hdigits⟩
  · exact List.forall_mem_cons.2 ⟨.inr (.inr (.inl rfl)), hdigits⟩
  · exact hdigits

theorem forall_isScalarChar_of_exponentOf? {chars : List Char} {exponent : Int}
    (h : Binary64.exponentOf? chars = some exponent) : ∀ c ∈ chars, IsScalarChar c := by
  cases chars with
  | nil => nofun
  | cons c rest =>
    simp only [Binary64.exponentOf?] at h
    split at h
    · rename_i hform
      obtain ⟨hmark, -, hdigits⟩ := hform
      refine List.forall_mem_cons.2 ⟨?_, forall_isScalarChar_of_splitSign rfl fun d hd =>
        isScalarChar_of_isDigit (List.all_eq_true.1 hdigits d hd)⟩
      rcases hmark with rfl | rfl <;> exact .inl (by decide)
    · cases h

theorem forall_isScalarChar_of_spanDigits {chars : List Char}
    (h : ∀ c ∈ (Binary64.spanDigits chars).2, IsScalarChar c) : ∀ c ∈ chars, IsScalarChar c := by
  rw [← List.takeWhile_append_dropWhile (p := Char.isDigit) (l := chars), List.forall_mem_append]
  exact ⟨fun c hc => isScalarChar_of_isDigit (List.all_eq_true.1 List.all_takeWhile c hc), h⟩

theorem forall_isScalarChar_of_ofDigits? {negative : Bool} {chars : List Char} {value : Binary64}
    (h : Binary64.ofDigits? negative chars = some value) : ∀ c ∈ chars, IsScalarChar c := by
  refine forall_isScalarChar_of_spanDigits ?_
  unfold Binary64.ofDigits? at h
  dsimp only at h
  split at h
  · rename_i rest hpoint
    split at h
    · cases h
    · obtain ⟨exponent, hexponent, -⟩ := Option.bind_eq_some_iff.1 h
      have hfraction := forall_isScalarChar_of_spanDigits (forall_isScalarChar_of_exponentOf? hexponent)
      rw [hpoint]
      exact List.forall_mem_cons.2 ⟨.inr (.inr (.inr rfl)), hfraction⟩
  · split at h
    · cases h
    · obtain ⟨exponent, hexponent, -⟩ := Option.bind_eq_some_iff.1 h
      exact forall_isScalarChar_of_exponentOf? hexponent

theorem forall_isScalarChar_of_ofText? {value : Binary64} (h : Binary64.ofText? text = some value) :
    ∀ c ∈ text.toList, IsScalarChar c := by
  refine forall_isScalarChar_of_splitSign rfl ?_
  unfold Binary64.ofText? at h
  dsimp only at h
  have hword {word : String}
      (hsame : String.ofList ((Binary64.splitSign text.toList).2.map Char.toLower) = word)
      (hchars : word.toList.all Char.isAlphanum = true) :
      ∀ c ∈ (Binary64.splitSign text.toList).2, IsScalarChar c :=
    forall_isScalarChar_of_word (String.ofList_inj.1 (hsame.trans String.ofList_toList.symm)) hchars
  split at h
  · rename_i hinfinite
    exact hinfinite.elim (hword · (by decide)) (hword · (by decide))
  · split at h
    · rename_i hnan
      exact hword hnan (by decide)
    · exact forall_isScalarChar_of_ofDigits? h

theorem LooksLike.forall_isScalarChar (h : LooksLike text scalar) :
    ∀ c ∈ text.toList, IsScalarChar c := by
  cases h with
  | @boolean value word =>
    exact forall_isScalarChar_of_word word (by cases value <;> decide)
  | integer noWord numeral =>
    cases numeral with
    | positive sign nonempty digit small =>
      have hdigits := fun c hc => isScalarChar_of_isDigit (digit c hc)
      rcases sign with htext | htext
      · exact htext ▸ hdigits
      · exact htext ▸ List.forall_mem_cons.2 ⟨.inr (.inl rfl), hdigits⟩
    | negative sign nonempty digit small =>
      have hdigits := fun c hc => isScalarChar_of_isDigit (digit c hc)
      exact sign ▸ List.forall_mem_cons.2 ⟨.inr (.inr (.inl rfl)), hdigits⟩
  | number noWord noNumeral read => exact forall_isScalarChar_of_ofText? read

end ContentTypes.Settings
