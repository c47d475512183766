import ContentTypes.Proofs.Declaration.Name

/-!
# Laws of PascalCase

The words of a text are put together one by one, so a text can be cut at any of its separators. A name
is its own name: it has no separators, and its first character is its own upper case. The name that
comes from an identifier has no dots either, so it does not begin like that of a flat declaration:
`pascalCase_laws`.
-/

namespace ContentTypes.Declaration

-- ---------------------------------------------------------------------------
-- Words
-- ---------------------------------------------------------------------------

theorem pascalFrom_append {separator : Char} (h : isWordSeparator separator = true) (atStart : Bool)
    (text rest : List Char) :
    pascalFrom atStart (text ++ separator :: rest) =
      pascalFrom atStart text ++ pascalFrom true rest := by
  induction text generalizing atStart with
  | nil => exact pascalFrom_of_separator h
  | cons c text ih =>
    rw [List.cons_append]
    cases hc : isWordSeparator c with
    | true => rw [pascalFrom_of_separator hc, pascalFrom_of_separator hc, ih]
    | false =>
      rw [pascalFrom_of_not_separator hc, pascalFrom_of_not_separator hc, ih, List.append_assoc]

theorem pascalCase_append {separator : Char} (h : isWordSeparator separator = true)
    (text rest : String) :
    pascalCase (text ++ String.singleton separator ++ rest) = pascalCase text ++ pascalCase rest := by
  simp [pascalCase, pascalFrom_append h]

-- ---------------------------------------------------------------------------
-- Names of names
-- ---------------------------------------------------------------------------

theorem pascalFrom_of_unseparated {text : List Char} (h : ∀ c ∈ text, isWordSeparator c = false) :
    pascalFrom false text = text := by
  induction text with
  | nil => rfl
  | cons c text ih =>
    obtain ⟨hc, htext⟩ := List.forall_mem_cons.1 h
    rw [pascalFrom_of_not_separator hc, ih htext]
    rfl

theorem uppercase_of_head_pascalCase {text : String} {c : Char}
    (h : (pascalCase text).toList.head? = some c) : Text.uppercase c = [c] := by
  rw [pascalCase, String.toList_ofList] at h
  obtain ⟨d, hd⟩ := exists_of_head_pascalFrom h
  exact Text.uppercase_of_head? hd

theorem pascalCase_eq_self_iff {text : String} :
    pascalCase text = text ↔ (∀ c ∈ text.toList, isWordSeparator c = false) ∧
      ∀ c, text.toList.head? = some c → Text.uppercase c = [c] := by
  constructor
  · intro h
    rw [← h]
    exact ⟨(isTypeName_pascalCase text).unseparated, fun c => uppercase_of_head_pascalCase⟩
  · rintro ⟨hseparated, hfirst⟩
    rw [← String.toList_inj, pascalCase, String.toList_ofList]
    cases htext : text.toList with
    | nil => rfl
    | cons c rest =>
      rw [htext] at hseparated hfirst
      obtain ⟨hc, hrest⟩ := List.forall_mem_cons.1 hseparated
      rw [pascalFrom_of_not_separator hc, pascalFrom_of_unseparated hrest, recase, if_pos rfl,
        hfirst c rfl, List.singleton_append]

theorem pascalCase_pascalCase (text : String) : pascalCase (pascalCase text) = pascalCase text :=
  pascalCase_eq_self_iff.2
    ⟨(isTypeName_pascalCase text).unseparated, fun _ => uppercase_of_head_pascalCase⟩

-- ---------------------------------------------------------------------------
-- Names from identifiers
-- ---------------------------------------------------------------------------

theorem not_mem_afterLast (mark : Char) (text : List Char) : mark ∉ afterLast [mark] text := by
  induction text with
  | nil => exact List.not_mem_nil
  | cons c text ih =>
    unfold afterLast at ih ⊢
    cases hlast : afterLast? [mark] text with
    | some tail => simpa [afterLast?, hlast] using ih
    | none =>
      rw [hlast, Option.getD_none] at ih
      by_cases hc : mark = c
      · subst hc
        simpa [afterLast?, hlast] using ih
      · simp [afterLast?, hlast, hc, ih]

/-- Upper case makes no dots, so the dots of an identifier are all cut off. -/
theorem dot_not_mem_typeName (uid : String) : '.' ∉ (typeName uid).toList := by
  intro h
  rw [typeName, pascalCase, String.toList_ofList] at h
  rcases mem_pascalFrom h with ⟨hpart, -⟩ | himage
  · rw [localPart, String.toList_ofList] at hpart
    exact not_mem_afterLast '.' _ hpart
  · exact absurd himage (by unfold Text.IsImage; decide)

theorem IsTypeName.not_mem {name : String} {separator : Char} (h : IsTypeName name)
    (hseparator : isWordSeparator separator = true) : separator ∉ name.toList := fun hmem =>
  Bool.false_ne_true ((h.unseparated separator hmem).symm.trans hseparator)

theorem IsTypeName.not_begins_flatName {name : String} (h : IsTypeName name) (other : String) :
    ¬(flatName other).toList <+: name.toList := fun hbegins =>
  h.not_mem (by decide : isWordSeparator '_' = true) (hbegins.subset (by simp [flatName]))

/-- The name of a text that is cut at a separator is put together of the names of its parts. A name has
no separators and is its own name. The name that comes from an identifier has no dots either, and it
neither is nor begins with that of a flat declaration. -/
theorem pascalCase_laws (text other uid name : String) :
    (∀ separator ∈ ['_', '-', ' '],
      pascalCase (text ++ String.singleton separator ++ other) =
        pascalCase text ++ pascalCase other) ∧
      (∀ separator ∈ ['_', '-', ' '], separator ∉ (pascalCase text).toList) ∧
      pascalCase (pascalCase text) = pascalCase text ∧
      (∀ mark ∈ ['_', '-', ' ', '.'], mark ∉ (typeName uid).toList) ∧
      typeName uid ≠ flatName name ∧ ¬(flatName name).toList <+: (typeName uid).toList := by
  have hseparator : ∀ separator ∈ ['_', '-', ' '], isWordSeparator separator = true := by
    simp [isWordSeparator]
  have hname := isTypeName_pascalCase text
  have huid := isTypeName_typeName uid
  refine ⟨fun separator hmem => pascalCase_append (hseparator separator hmem) text other,
    fun separator hmem => hname.not_mem (hseparator separator hmem), pascalCase_pascalCase text, ?_,
    ne_flatName huid.unseparated, huid.not_begins_flatName name⟩
  intro mark hmem
  rcases List.mem_append.1 (show mark ∈ ['_', '-', ' '] ++ ['.'] from hmem) with hmark | hdot
  · exact huid.not_mem (hseparator mark hmark)
  · rw [List.mem_singleton.1 hdot]
    exact dot_not_mem_typeName uid

/-- The separators at the end of a part make no word, and the first character of the next may become
two. -/
theorem pascalCase_laws_of_expansion :
    '-' ∈ ['_', '-', ' '] ∧
      pascalCase ("blog_" ++ String.singleton '-' ++ "ßeta") =
        pascalCase "blog_" ++ pascalCase "ßeta" ∧
      pascalCase "ßeta" = "SSeta" ∧ '.' ∉ (typeName "api::blog.v2.ßeta").toList := by
  have hmem : '-' ∈ ['_', '-', ' '] := by decide
  obtain ⟨hcut, -, -, hmarks, -⟩ := pascalCase_laws "blog_" "ßeta" "api::blog.v2.ßeta" ""
  exact ⟨hmem, hcut '-' hmem, by decide +kernel, hmarks '.' (by decide)⟩

end ContentTypes.Declaration
