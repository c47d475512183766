import ContentTypes.Declaration.Property
import Mathlib.Data.List.TakeDrop

/-!
# Keys of properties

A key is read back from what stands at the beginning of a line: a literal in quotes, or the characters
of an identifier. The mark of an optional property is part of neither, so a line gives away the name
that it declares: `declaredName?_line`.
-/

namespace ContentTypes.Declaration

open Text

def optionalMark (optional : Bool) : String :=
  if optional then "?" else ""

theorem propertyKey_eq (name : String) (optional : Bool) :
    propertyKey name optional = propertyKey name false ++ optionalMark optional := by
  cases optional <;> simp [propertyKey, optionalMark]

-- ---------------------------------------------------------------------------
-- Identifiers
-- ---------------------------------------------------------------------------

theorem isIdentifierPart_of_isIdentifierStart {c : Char} (h : isIdentifierStart c = true) :
    isIdentifierPart c = true := by
  simp only [isIdentifierStart, isIdentifierPart, Bool.or_eq_true, Char.isAlphanum] at h ⊢
  exact h.imp_left fun h => h.imp_left .inl

theorem exists_of_isIdentifier {name : String} (h : isIdentifier name = true) :
    ∃ c rest, name.toList = c :: rest ∧ ∀ d ∈ c :: rest, isIdentifierPart d = true := by
  unfold isIdentifier at h
  split at h
  · cases h
  · rename_i c rest hname
    rw [Bool.and_eq_true, List.all_eq_true] at h
    exact ⟨c, rest, hname,
      List.forall_mem_cons.2 ⟨isIdentifierPart_of_isIdentifierStart h.1, h.2⟩⟩

theorem ne_of_isIdentifierPart {c d : Char} (h : isIdentifierPart c = true)
    (hd : isIdentifierPart d = false) : c ≠ d := by
  rintro rfl
  cases h.symm.trans hd

theorem getLast?_propertyKey_ne (name : String) :
    (propertyKey name false).toList.getLast? ≠ some '?' := by
  unfold propertyKey
  by_cases hname : isIdentifier name = true
  · obtain ⟨c, rest, htext, hparts⟩ := exists_of_isIdentifier hname
    simp only [hname, if_true, Bool.false_eq_true, if_false, htext]
    intro hlast
    exact ne_of_isIdentifierPart (hparts _ (List.mem_of_getLast? hlast)) (by decide) rfl
  · simp only [hname, Bool.false_eq_true, if_false, SingleQuoted.encode, String.toList_ofList,
      List.getLast?_concat]
    decide

-- ---------------------------------------------------------------------------
-- Reading a name
-- ---------------------------------------------------------------------------

def readName? : List Char → Option (List Char × List Char)
  | '\'' :: rest => SingleQuoted.scan rest
  | text => some (text.span isIdentifierPart)

/-- The name of the property that a line declares. It stands before a colon, which may have the mark of
an optional property before it. -/
def declaredName? (line : String) : Option String := do
  let (name, rest) ← readName? line.toList
  match rest with
  | ':' :: _ | '?' :: ':' :: _ => some (String.ofList name)
  | _ => none

theorem readName?_propertyKey (name : String) {c : Char} (h : isIdentifierPart c = false)
    (rest : List Char) :
    readName? ((propertyKey name false).toList ++ c :: rest) = some (name.toList, c :: rest) := by
  unfold propertyKey
  by_cases hname : isIdentifier name = true
  · obtain ⟨first, letters, htext, hparts⟩ := exists_of_isIdentifier hname
    have hquote : first ≠ '\'' := ne_of_isIdentifierPart (hparts first List.mem_cons_self) (by decide)
    simp only [hname, if_true, Bool.false_eq_true, if_false, htext]
    have hspan : (first :: letters ++ c :: rest).span isIdentifierPart =
        (first :: letters, c :: rest) := by
      rw [List.span_eq_takeWhile_dropWhile, List.takeWhile_append_of_pos hparts,
        List.dropWhile_append_of_pos hparts, List.takeWhile_cons_of_neg (by simp [h]),
        List.dropWhile_cons_of_neg (by simp [h]), List.append_nil]
    rw [List.cons_append, readName?, ← List.cons_append, hspan]
    exact fun _ heq => hquote (List.cons.inj heq).1
  · simp only [hname, Bool.false_eq_true, if_false, SingleQuoted.encode, String.toList_ofList]
    rw [List.cons_append, List.cons_append, List.append_assoc, readName?]
    exact SingleQuoted.scan_escape name.toList (c :: rest)

theorem declaredName?_line (name type : String) (optional : Bool) :
    declaredName? (propertyKey name optional ++ ": " ++ type ++ ";") = some name := by
  rw [propertyKey_eq]
  cases optional with
  | false =>
    have hmark : isIdentifierPart ':' = false := by decide
    have hread := readName?_propertyKey name hmark (' ' :: (type.toList ++ [';']))
    simp [declaredName?, optionalMark, hread]
  | true =>
    have hmark : isIdentifierPart '?' = false := by decide
    have hread := readName?_propertyKey name hmark (':' :: ' ' :: (type.toList ++ [';']))
    simp [declaredName?, optionalMark, hread]

end ContentTypes.Declaration
