import ContentTypes.Proofs.Declaration.Key

/-!
# Quoted texts read back

A text in quotes is read back from its literal, whatever follows it. So the type of an enumeration
gives away its options, and the key of a property its name and whether it is optional:
`quoted_reads_back`.
-/

namespace ContentTypes

namespace Text.SingleQuoted

-- ---------------------------------------------------------------------------
-- Literals
-- ---------------------------------------------------------------------------

def replaceEach (old : Char) (new text : List Char) : List Char :=
  text.flatMap fun c => if c = old then new else [c]

/-- Two replacements of the whole text escape it, the backslashes first: a later replacement of
backslashes would not spare those before the quotes. -/
theorem escape_eq_replaceEach (text : List Char) :
    escape text = replaceEach '\'' ['\\', '\''] (replaceEach '\\' ['\\', '\\'] text) := by
  induction text with
  | nil => rfl
  | cons c text ih =>
    by_cases h : c = '\\' ∨ c = '\''
    · rcases h with rfl | rfl <;> simp [escape, replaceEach, ih]
    · obtain ⟨hb, hq⟩ := not_or.1 h
      simp [escape, replaceEach, hb, hq, ih]

/-- In the other order a quote is not read back. -/
example : scan (replaceEach '\\' ['\\', '\\'] (replaceEach '\'' ['\\', '\''] ['\'']) ++ ['\'']) ≠
    some (['\''], []) := by
  decide

def readLiteral? : List Char → Option (List Char × List Char)
  | '\'' :: rest => scan rest
  | _ => none

theorem readLiteral?_encode (text : String) (rest : List Char) :
    readLiteral? ((encode text).toList ++ rest) = some (text.toList, rest) := by
  have hliteral : (encode text).toList ++ rest = '\'' :: (escape text.toList ++ '\'' :: rest) := by
    simp [encode]
  rw [hliteral, readLiteral?, scan_escape]

theorem exists_of_map_cons {c : Char} {read? : Option (List Char × List Char)} {text rest : List Char}
    (h : (read?.map fun (text, after) => (c :: text, after)) = some (text, rest)) :
    ∃ tail, read? = some (tail, rest) := by
  obtain ⟨⟨tail, after⟩, hread, heq⟩ := Option.map_eq_some_iff.1 h
  obtain ⟨-, rfl⟩ := Prod.mk.inj heq
  exact ⟨tail, hread⟩

theorem length_lt_of_scan {literal text rest : List Char} (h : scan literal = some (text, rest)) :
    rest.length < literal.length := by
  fun_induction scan literal generalizing text with
  | case1 => cases h
  | case2 =>
    cases h
    exact Nat.lt_succ_self _
  | case3 c literal ih =>
    obtain ⟨tail, hscan⟩ := exists_of_map_cons h
    exact Nat.lt_succ_of_lt (Nat.lt_succ_of_lt (ih hscan))
  | case4 c literal _ _ ih =>
    obtain ⟨tail, hscan⟩ := exists_of_map_cons h
    exact Nat.lt_succ_of_lt (ih hscan)

theorem length_lt_of_readLiteral? {literal text rest : List Char}
    (h : readLiteral? literal = some (text, rest)) : rest.length < literal.length := by
  unfold readLiteral? at h
  split at h
  · exact Nat.lt_succ_of_lt (length_lt_of_scan h)
  · cases h

def readLiterals? (text : List Char) : Option (List String) :=
  match _h : readLiteral? text with
  | some (first, []) => some [String.ofList first]
  | some (first, ' ' :: '|' :: ' ' :: rest) => (readLiterals? rest).map (String.ofList first :: ·)
  | _ => none
termination_by text.length
decreasing_by
  have := length_lt_of_readLiteral? _h
  simp only [List.length_cons] at this
  omega

theorem readLiterals?_eq (text : List Char) :
    readLiterals? text =
      match readLiteral? text with
      | some (first, []) => some [String.ofList first]
      | some (first, ' ' :: '|' :: ' ' :: rest) =>
        (readLiterals? rest).map (String.ofList first :: ·)
      | _ => none := by
  rw [readLiterals?]
  split <;> simp_all

theorem readLiterals?_intercalate (first : String) (others : List String) :
    readLiterals? (" | ".intercalate ((first :: others).map encode)).toList =
      some (first :: others) := by
  induction others generalizing first with
  | nil =>
    have hread := readLiteral?_encode first []
    rw [List.append_nil] at hread
    simp [readLiterals?_eq, hread]
  | cons second others ih =>
    have hunion : (" | ".intercalate ((first :: second :: others).map encode)).toList =
        (encode first).toList ++ ' ' :: '|' :: ' ' ::
          (" | ".intercalate ((second :: others).map encode)).toList := by
      simp
    rw [hunion, readLiterals?_eq, readLiteral?_encode]
    simp only [ih second, String.ofList_toList, Option.map_some]

end Text.SingleQuoted

namespace Declaration

open Text

-- ---------------------------------------------------------------------------
-- Options
-- ---------------------------------------------------------------------------

def readOptions? (type : String) : Option (List String) :=
  if type = "never" then some [] else SingleQuoted.readLiterals? type.toList

theorem optionsUnion_eq_never_iff (options : List String) :
    optionsUnion options = "never" ↔ options = [] := by
  constructor
  · intro h
    cases options with
    | nil => rfl
    | cons option options =>
      have hread : SingleQuoted.readLiterals? (optionsUnion (option :: options)).toList = _ :=
        SingleQuoted.readLiterals?_intercalate option options
      have hnever : SingleQuoted.readLiterals? "never".toList = none := by
        rw [SingleQuoted.readLiterals?_eq]
        rfl
      rw [h, hnever] at hread
      cases hread
  · rintro rfl
    rfl

theorem readOptions?_optionsUnion (options : List String) :
    readOptions? (optionsUnion options) = some options := by
  unfold readOptions?
  cases options with
  | nil => rfl
  | cons option options =>
    rw [if_neg (mt (optionsUnion_eq_never_iff _).1 (List.cons_ne_nil _ _))]
    exact SingleQuoted.readLiterals?_intercalate option options

theorem optionsUnion_inj {options others : List String} :
    optionsUnion options = optionsUnion others ↔ options = others := by
  refine ⟨fun h => ?_, congrArg optionsUnion⟩
  have hread := readOptions?_optionsUnion options
  rw [h, readOptions?_optionsUnion others] at hread
  exact (Option.some.inj hread).symm

-- ---------------------------------------------------------------------------
-- Keys
-- ---------------------------------------------------------------------------

theorem optionalMark_inj {optional optional' : Bool} :
    optionalMark optional = optionalMark optional' ↔ optional = optional' := by
  cases optional <;> cases optional' <;> decide

theorem propertyKey_inj {name other : String} {optional optional' : Bool} :
    propertyKey name optional = propertyKey other optional' ↔ name = other ∧ optional = optional' := by
  constructor
  · intro h
    have hname : name = other := by
      have hline := declaredName?_line name "" optional
      rw [h, declaredName?_line] at hline
      exact (Option.some.inj hline).symm
    subst hname
    rw [propertyKey_eq, propertyKey_eq name optional'] at h
    have hmark : optionalMark optional = optionalMark optional' := by
      simpa [← String.toList_inj] using h
    exact ⟨rfl, optionalMark_inj.1 hmark⟩
  · rintro ⟨rfl, rfl⟩
    rfl

/-- A literal is its text with backslashes and quotes replaced, and is read back to its end, whatever
follows it. The type of an enumeration gives back the list of its options, and is `never` only if there
are none. Two keys are equal only if both names and both marks are. -/
theorem quoted_reads_back (text name other : String) (rest : List Char)
    (options others : List String) (optional optional' : Bool) :
    (SingleQuoted.encode text).toList =
        '\'' :: SingleQuoted.replaceEach '\'' ['\\', '\'']
          (SingleQuoted.replaceEach '\\' ['\\', '\\'] text.toList) ++ ['\''] ∧
      SingleQuoted.readLiteral? ((SingleQuoted.encode text).toList ++ rest) =
        some (text.toList, rest) ∧
      readOptions? (optionsUnion options) = some options ∧
      (optionsUnion options = optionsUnion others ↔ options = others) ∧
      (optionsUnion options = "never" ↔ options = []) ∧
      (propertyKey name optional = propertyKey other optional' ↔
        name = other ∧ optional = optional') := by
  refine ⟨?_, SingleQuoted.readLiteral?_encode text rest, readOptions?_optionsUnion options,
    optionsUnion_inj, optionsUnion_eq_never_iff options, propertyKey_inj⟩
  rw [SingleQuoted.encode, String.toList_ofList, SingleQuoted.escape_eq_replaceEach]

end Declaration

end ContentTypes
