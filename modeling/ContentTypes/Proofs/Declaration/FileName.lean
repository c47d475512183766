import ContentTypes.Declaration.Unit
import ContentTypes.Proofs.Declaration.Name
import ContentTypes.Proofs.Path.Undotted
import Mathlib.Data.List.Forall2

/-!
# File names made from names

A name in PascalCase keeps the slashes and dots of the text that it is made from: `Recased`. So the
directories through which a file name leads can be read off the text, and whether it leads out of the
output directory is seen there: `goesDown_fileName_iff`.
-/

namespace ContentTypes.Declaration

open Text (IsImage IsSmall)

variable {text image dots : List Char}

-- ---------------------------------------------------------------------------
-- Changes of case
-- ---------------------------------------------------------------------------

/-- Characters of the first text, but no slashes and dots, may have gone to images in the second. -/
inductive Recased : List Char → List Char → Prop
  | nil : Recased [] []
  | keep (c : Char) {text image : List Char} :
    Recased text image → Recased (c :: text) (c :: image)
  | change {c first : Char} {others text image : List Char} : c ≠ '/' → c ≠ '.' →
    (∀ d ∈ first :: others, IsImage d) → Recased text image →
    Recased (c :: text) (first :: (others ++ image))

theorem recased_pascalFrom (atStart : Bool) (text : List Char) :
    Recased (text.filter fun c => !isWordSeparator c) (pascalFrom atStart text) := by
  induction text generalizing atStart with
  | nil => exact .nil
  | cons c rest ih =>
    cases hc : isWordSeparator c with
    | true => simpa [pascalFrom_of_separator hc, hc] using ih true
    | false =>
      rw [pascalFrom_of_not_separator hc, List.filter_cons_of_pos (by simp [hc])]
      rcases recase_cases atStart c with hkept | ⟨hne, himages, hletter⟩
      · rw [hkept]
        exact .keep c (ih false)
      · -- slashes and dots are no letters
        have hmark {mark : Char} (h : ¬(IsImage mark ∨ IsSmall mark)) : c ≠ mark := by
          rintro rfl
          exact h hletter
        have hslash : c ≠ '/' := hmark (by unfold IsImage IsSmall; decide)
        have hdot : c ≠ '.' := hmark (by unfold IsImage IsSmall; decide)
        obtain ⟨first, others, hu⟩ := List.exists_cons_of_ne_nil hne
        rw [hu] at himages ⊢
        exact .change hslash hdot himages (ih false)

namespace Recased

theorem eq_dots_iff (h : Recased text image) (hdots : ∀ c ∈ dots, c = '.') :
    text = dots ↔ image = dots := by
  induction h generalizing dots with
  | nil => rfl
  | keep c _ ih =>
    cases dots with
    | nil => simp
    | cons d rest =>
      rw [List.cons.injEq, List.cons.injEq, ih fun c hm => hdots c (List.mem_cons_of_mem d hm)]
  | change _ hdot himages _ _ =>
    cases dots with
    | nil => simp
    | cons d rest =>
      have hd := hdots d List.mem_cons_self
      refine iff_of_false (fun he => hdot ((List.cons.inj he).1.trans hd)) fun he => ?_
      have himage := himages _ List.mem_cons_self
      rw [(List.cons.inj he).1, hd] at himage
      exact absurd himage (by unfold IsImage; decide)

theorem slash_not_mem (h : Recased text image) (hslash : '/' ∉ text) : '/' ∉ image := by
  induction h with
  | nil => exact hslash
  | keep c _ ih => 
    rw [List.mem_cons, not_or] at hslash ⊢
    exact ⟨hslash.1, ih hslash.2⟩
  | change _ _ himages _ ih =>
    rw [List.mem_cons, not_or] at hslash
    rw [← List.cons_append, List.mem_append, not_or]
    exact ⟨fun hm => absurd (himages _ hm) (by unfold IsImage; decide), ih hslash.2⟩

theorem splitOn (h : Recased text image) :
    List.Forall₂ Recased (text.splitOn '/') (image.splitOn '/') := by
  induction h with
  | nil => exact .cons .nil .nil
  | @keep c text image _ ih =>
    rw [List.splitOn_cons_eq_if_modifyHead, List.splitOn_cons_eq_if_modifyHead]
    split
    · exact .cons .nil ih
    · generalize text.splitOn '/' = parts at ih
      generalize image.splitOn '/' = others at ih
      cases ih with
      | nil => exact .nil
      | cons hfirst hrest => exact .cons (.keep c hfirst) hrest
  | @change c first others text image hslash hdot himages _ ih =>
    have hne : ¬(c == '/') = true := by simpa using hslash
    have hclean : '/' ∉ first :: others := fun hm =>
      absurd (himages _ hm) (by unfold IsImage; decide)
    rw [List.splitOn_cons_eq_if_modifyHead, if_neg hne, ← List.cons_append,
      Path.splitOn_append hclean]
    generalize text.splitOn '/' = parts at ih
    generalize image.splitOn '/' = others at ih
    cases ih with
    | nil => exact .nil
    | cons hfirst hrest => exact .cons (.change hslash hdot himages hfirst) hrest

end Recased

theorem slash_not_mem_pascalCase {text : String} (h : '/' ∉ text.toList) :
    '/' ∉ (pascalCase text).toList := by
  rw [pascalCase, String.toList_ofList]
  exact (recased_pascalFrom true text.toList).slash_not_mem fun hm => h (List.mem_filter.1 hm).1

-- ---------------------------------------------------------------------------
-- Directories of a name
-- ---------------------------------------------------------------------------

def directoryParts (text : List Char) : List (List Char) :=
  (text.splitOn '/').dropLast

/-- A file name leads out of the directory that it is seen from if it begins with a slash, or if it
has `..` before one. -/
def LeadsOut (text : List Char) : Prop :=
  (directoryParts text).head? = some [] ∨ ['.', '.'] ∈ directoryParts text

instance : DecidablePred LeadsOut := fun text =>
  inferInstanceAs (Decidable (_ ∨ ['.', '.'] ∈ directoryParts text))

theorem Recased.forall₂_directoryParts (h : Recased text image) :
    List.Forall₂ Recased (directoryParts text) (directoryParts image) := by
  have hparts := h.splitOn
  unfold directoryParts
  rw [List.dropLast_eq_take, List.dropLast_eq_take, hparts.length_eq]
  exact List.forall₂_take _ hparts

theorem dots_mem_iff {parts others : List (List Char)} (h : List.Forall₂ Recased parts others)
    (hdots : ∀ c ∈ dots, c = '.') : dots ∈ parts ↔ dots ∈ others := by
  induction h with
  | nil => rfl
  | cons hfirst _ ih =>
    rw [List.mem_cons, List.mem_cons, ih, eq_comm, hfirst.eq_dots_iff hdots, eq_comm]

theorem head_dots_iff {parts others : List (List Char)} (h : List.Forall₂ Recased parts others)
    (hdots : ∀ c ∈ dots, c = '.') : parts.head? = some dots ↔ others.head? = some dots := by
  cases h with
  | nil => rfl
  | cons hfirst _ => simp only [List.head?_cons, Option.some.injEq, hfirst.eq_dots_iff hdots]

theorem Recased.leadsOut_iff (h : Recased text image) : LeadsOut text ↔ LeadsOut image := by
  unfold LeadsOut
  rw [head_dots_iff h.forall₂_directoryParts (by simp),
    dots_mem_iff h.forall₂_directoryParts (by simp)]

theorem exists_splitOn_append {ending : List Char} (h : '/' ∉ ending) (text : List Char) :
    ∃ last, (text ++ ending).splitOn '/' = directoryParts text ++ [last ++ ending] := by
  unfold directoryParts
  induction text with
  | nil =>
    refine ⟨[], ?_⟩
    rw [List.nil_append, List.splitOn_eq_singleton h]
    rfl
  | cons c rest ih =>
    obtain ⟨last, hlast⟩ := ih
    obtain ⟨first, others, hrest⟩ := List.exists_cons_of_ne_nil (List.splitOn_ne_nil '/' rest)
    rw [List.cons_append, List.splitOn_cons_eq_if_modifyHead, List.splitOn_cons_eq_if_modifyHead,
      hlast, hrest]
    split
    · exact ⟨last, rfl⟩
    · cases others with
      | nil => exact ⟨c :: last, rfl⟩
      | cons second more => exact ⟨last, rfl⟩

theorem head_eq_slash_iff : text.head? = some '/' ↔ (directoryParts text).head? = some [] := by
  unfold directoryParts
  cases text with
  | nil => simp
  | cons c rest =>
    obtain ⟨first, others, hrest⟩ := List.exists_cons_of_ne_nil (List.splitOn_ne_nil '/' rest)
    rw [List.splitOn_cons_eq_if_modifyHead, hrest]
    split
    · rename_i hc
      simpa using hc
    · rename_i hc
      have hc : c ≠ '/' := by simpa using hc
      cases others <;> simp [hc]

theorem goesDown_fileName_iff (name : String) :
    (⟨name ++ ".ts"⟩ : Path).GoesDown ↔ ¬LeadsOut name.toList := by
  obtain ⟨last, hparts⟩ := exists_splitOn_append (show '/' ∉ ".ts".toList by decide) name.toList
  have habsolute : (⟨name ++ ".ts"⟩ : Path).isAbsolute = true ↔
      (directoryParts name.toList).head? = some [] := by
    rw [← head_eq_slash_iff]
    unfold Path.isAbsolute
    rw [decide_eq_true_eq, String.toList_append]
    cases name.toList <;> simp
  have hparent : ".." ∈ (⟨name ++ ".ts"⟩ : Path).pieces ↔
      ['.', '.'] ∈ directoryParts name.toList := by
    have hlast : ['.', '.'] ≠ last ++ ".ts".toList := fun he => by
      simpa using congrArg List.getLast? he
    have hpiece : ∀ part : List Char, String.ofList part = ".." ↔ part = ['.', '.'] := fun part => by
      rw [← String.toList_inj, String.toList_ofList]
      rfl
    simp only [Path.pieces, String.toList_append, hparts, List.mem_map, hpiece, exists_eq_right,
      List.mem_filter, List.mem_append, List.mem_singleton, hlast, or_false]
    exact and_iff_left (by decide)
  unfold Path.GoesDown LeadsOut
  rw [Path.parent_mem_components_iff, hparent, ← Bool.not_eq_true, habsolute, not_or]

/-- Whether the file that is named after a text would lie elsewhere. What separates words does not
count. -/
def NameLeadsOut (text : String) : Prop :=
  LeadsOut (text.toList.filter fun c => !isWordSeparator c)

instance : DecidablePred NameLeadsOut := fun text =>
  inferInstanceAs (Decidable (LeadsOut (text.toList.filter fun c => !isWordSeparator c)))

theorem goesDown_pascalCase_iff (text : String) :
    (⟨pascalCase text ++ ".ts"⟩ : Path).GoesDown ↔ ¬NameLeadsOut text := by
  rw [goesDown_fileName_iff, pascalCase, String.toList_ofList, NameLeadsOut,
    (recased_pascalFrom true text.toList).leadsOut_iff]

example : NameLeadsOut "a/._./tag" ∧ ¬NameLeadsOut "./tag" ∧ ¬NameLeadsOut "tag/.." := by
  decide +kernel

theorem exists_piece_fileName (name : String) :
    ∃ piece ∈ (⟨name ++ ".ts"⟩ : Path).pieces, piece ≠ "." ∧ piece ≠ ".." := by
  obtain ⟨last, hparts⟩ := exists_splitOn_append (show '/' ∉ ".ts".toList by decide) name.toList
  refine ⟨String.ofList (last ++ ".ts".toList), ?_, ?_, ?_⟩
  · unfold Path.pieces
    rw [String.toList_append, hparts]
    exact List.mem_map.2 ⟨last ++ ".ts".toList, List.mem_filter.2 ⟨by simp, by simp⟩, rfl⟩
  · intro he
    simpa using congrArg (·.toList.getLast?) he
  · intro he
    simpa using congrArg (·.toList.getLast?) he

theorem not_leadsOut_of_not_mem (h : '/' ∉ text) : ¬LeadsOut text := by
  unfold LeadsOut directoryParts
  rw [List.splitOn_eq_singleton h]
  simp

theorem goesDown_componentPath {name : String} (h : '/' ∉ name.toList) :
    ((⟨"components"⟩ : Path).join ⟨name ++ ".ts"⟩).GoesDown := by
  have hname : (⟨name ++ ".ts"⟩ : Path).GoesDown :=
    (goesDown_fileName_iff name).2 (not_leadsOut_of_not_mem h)
  constructor
  · rw [Path.isAbsolute_join _ _ hname.1]
    decide
  · rw [Path.parent_mem_components_iff, Path.pieces_join _ _ hname.1, List.mem_append, not_or]
    exact ⟨by decide +kernel, hname.not_mem_pieces⟩

theorem names_fileName_ne_nil (name : String) : (⟨name ++ ".ts"⟩ : Path).names ≠ [] := by
  obtain ⟨piece, hpiece, hdot, hdots⟩ := exists_piece_fileName name
  exact Path.names_ne_nil hpiece hdot hdots

theorem names_componentPath_ne_nil {name : String} (h : '/' ∉ name.toList) :
    ((⟨"components"⟩ : Path).join ⟨name ++ ".ts"⟩).names ≠ [] := by
  obtain ⟨piece, hpiece, hdot, hdots⟩ := exists_piece_fileName name
  have hname : (⟨name ++ ".ts"⟩ : Path).GoesDown :=
    (goesDown_fileName_iff name).2 (not_leadsOut_of_not_mem h)
  refine Path.names_ne_nil ?_ hdot hdots
  rw [Path.pieces_join _ _ hname.1]
  exact List.mem_append_right _ hpiece

end ContentTypes.Declaration
