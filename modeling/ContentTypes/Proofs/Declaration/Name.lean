import ContentTypes.Declaration.Reference
import ContentTypes.Proofs.Text.Uppercase

/-!
# The form of type names

A name in PascalCase has no separators between words and does not begin with a small letter of ASCII.
All names of types are of this form: those made from texts, and the two fixed ones.
-/

namespace ContentTypes.Declaration

open Text (IsImage IsSmall)

/-- What the parts of a declaration rely on in the name of a type. -/
structure IsTypeName (name : String) : Prop where
  unseparated : ∀ c ∈ name.toList, isWordSeparator c = false
  capital : ∀ c, name.toList.head? = some c → ¬IsSmall c

instance : DecidablePred IsTypeName := fun name =>
  decidable_of_iff (name.toList.all (fun c => !isWordSeparator c) ∧
      name.toList.head?.all (fun c => !decide (IsSmall c))) <| by
    constructor
    · rintro ⟨hall, hfirst⟩
      refine ⟨by simpa using hall, fun c hc => ?_⟩
      simpa [hc] using hfirst
    · rintro ⟨hall, hfirst⟩
      refine ⟨by simpa using hall, ?_⟩
      cases hc : name.toList.head? with
      | none => rfl
      | some c => simpa using hfirst c hc

theorem isWordSeparator_of_isImage {c : Char} (h : IsImage c) : isWordSeparator c = false := by
  have hne : ∀ d : Char, ¬IsImage d → c ≠ d := fun d hd he => hd (he ▸ h)
  have hlow := hne '_' (by unfold IsImage; decide)
  have hdash := hne '-' (by unfold IsImage; decide)
  have hblank := hne ' ' (by unfold IsImage; decide)
  simp [isWordSeparator, hlow, hdash, hblank]

-- ---------------------------------------------------------------------------
-- Names in PascalCase
-- ---------------------------------------------------------------------------

def recase (atStart : Bool) (c : Char) : List Char :=
  if atStart then Text.uppercase c else [c]

theorem mem_recase {atStart : Bool} {c d : Char} (h : d ∈ recase atStart c) : d = c ∨ IsImage d := by
  cases atStart with
  | false => exact .inl (List.mem_singleton.1 h)
  | true => exact Text.mem_uppercase h

theorem recase_cases (atStart : Bool) (c : Char) : recase atStart c = [c] ∨
    recase atStart c ≠ [] ∧ (∀ d ∈ recase atStart c, IsImage d) ∧ (IsImage c ∨ IsSmall c) := by
  cases atStart with
  | false => exact .inl rfl
  | true =>
    refine (Text.uppercase_cases c).imp_right fun ⟨hne, himages⟩ => ⟨hne, himages, ?_⟩
    by_cases hascii : c.toNat < 128
    · by_cases hsmall : IsSmall c
      · exact .inr hsmall
      · exact .inl (himages c (by simp [Text.uppercase_of_ascii hascii hsmall]))
    · exact .inl (.inr (Nat.le_of_not_lt hascii))

theorem pascalFrom_of_separator {atStart : Bool} {c : Char} {rest : List Char}
    (h : isWordSeparator c = true) : pascalFrom atStart (c :: rest) = pascalFrom true rest := by
  simp [pascalFrom, h]

theorem pascalFrom_of_not_separator {atStart : Bool} {c : Char} {rest : List Char}
    (h : isWordSeparator c = false) :
    pascalFrom atStart (c :: rest) = recase atStart c ++ pascalFrom false rest := by
  cases atStart <;> simp [pascalFrom, recase, h]

theorem mem_pascalFrom {atStart : Bool} {text : List Char} {d : Char}
    (h : d ∈ pascalFrom atStart text) : d ∈ text ∧ isWordSeparator d = false ∨ IsImage d := by
  induction text generalizing atStart with
  | nil => cases h
  | cons c rest ih =>
    cases hc : isWordSeparator c with
    | true =>
      rw [pascalFrom_of_separator hc] at h
      exact (ih h).imp_left (And.imp_left (List.mem_cons_of_mem c))
    | false =>
      rw [pascalFrom_of_not_separator hc] at h
      rcases List.mem_append.1 h with h | h
      · refine (mem_recase h).imp_left ?_
        rintro rfl
        exact ⟨List.mem_cons_self, hc⟩
      · exact (ih h).imp_left (And.imp_left (List.mem_cons_of_mem c))

theorem isWordSeparator_of_mem_pascalFrom {atStart : Bool} {text : List Char} {d : Char}
    (h : d ∈ pascalFrom atStart text) : isWordSeparator d = false :=
  (mem_pascalFrom h).elim And.right isWordSeparator_of_isImage

theorem exists_of_head_pascalFrom {text : List Char} {d : Char}
    (h : (pascalFrom true text).head? = some d) : ∃ c, (Text.uppercase c).head? = some d := by
  induction text with
  | nil => cases h
  | cons c rest ih =>
    cases hc : isWordSeparator c with
    | true =>
      rw [pascalFrom_of_separator hc] at h
      exact ih h
    | false =>
      obtain ⟨first, others, hu⟩ := List.exists_cons_of_ne_nil (Text.uppercase_ne_nil c)
      rw [pascalFrom_of_not_separator hc] at h
      exact ⟨c, by simpa [recase, hu] using h⟩

theorem not_isSmall_of_head_pascalFrom {text : List Char} {d : Char}
    (h : (pascalFrom true text).head? = some d) : ¬IsSmall d := by
  obtain ⟨c, hc⟩ := exists_of_head_pascalFrom h
  exact Text.not_isSmall_of_mem_uppercase (List.mem_of_head? hc)

theorem isTypeName_pascalCase (text : String) : IsTypeName (pascalCase text) where
  unseparated c hc := isWordSeparator_of_mem_pascalFrom (by simpa [pascalCase] using hc)
  capital c hc := not_isSmall_of_head_pascalFrom (by simpa [pascalCase] using hc)

theorem isTypeName_userName : IsTypeName userName := by
  decide +kernel

theorem isTypeName_mediaName : IsTypeName mediaName := by
  decide +kernel

theorem isTypeName_typeName (uid : String) : IsTypeName (typeName uid) :=
  isTypeName_pascalCase (localPart uid)

theorem isTypeName_targetName (target : String) : IsTypeName (targetName target) := by
  unfold targetName
  split
  · exact isTypeName_userName
  · exact isTypeName_typeName target

-- ---------------------------------------------------------------------------
-- Flat names
-- ---------------------------------------------------------------------------

theorem flatName_injective {name other : String} (h : flatName name = flatName other) :
    name = other := by
  simpa [flatName, ← String.toList_inj] using h

theorem ne_flatName {name other : String} (h : ∀ c ∈ name.toList, isWordSeparator c = false) :
    name ≠ flatName other := by
  rintro rfl
  simpa [isWordSeparator] using h '_' (by simp [flatName])

end ContentTypes.Declaration
