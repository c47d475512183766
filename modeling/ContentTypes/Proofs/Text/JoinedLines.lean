import ContentTypes.Proofs.Text.SplitLines
import ContentTypes.Text

/-!
# Lines that are put together

A line feed is put after each line. It ends a line of the text if no line has a line feed of its own, and
then the lines are read back (`endedLines_joinLines`). It is the only line end of its line if the text has
no more line ends than lines (`lineEnds_joinLines_eq_length`).
-/

namespace ContentTypes.Text

variable {text rest separator : List Char} {lines : List String}

theorem toList_joinLines_cons (line : String) (lines : List String) :
    (joinLines (line :: lines)).toList = line.toList ++ '\n' :: (joinLines lines).toList := by
  simp [joinLines]

-- ---------------------------------------------------------------------------
-- Lines ended by line feeds
-- ---------------------------------------------------------------------------

/-- The lines of a text each of which a line feed ends. A carriage return is a character of its line. -/
def endedLines (text : String) : List String :=
  ((text.toList.splitOn '\n').dropLast).map String.ofList

theorem splitOn_joinLines (h : ∀ line ∈ lines, '\n' ∉ line.toList) :
    (joinLines lines).toList.splitOn '\n' = lines.map String.toList ++ [[]] := by
  induction lines with
  | nil => rfl
  | cons line lines ih =>
    obtain ⟨hline, h⟩ := List.forall_mem_cons.1 h
    rw [toList_joinLines_cons, List.splitOn_append_cons_self_of_not_mem hline, ih h]
    rfl

theorem endedLines_joinLines (h : ∀ line ∈ lines, '\n' ∉ line.toList) :
    endedLines (joinLines lines) = lines := by
  simp [endedLines, splitOn_joinLines h, Function.comp_def]

-- ---------------------------------------------------------------------------
-- Line ends
-- ---------------------------------------------------------------------------

theorem unbroken_append : Unbroken (text ++ rest) ↔ Unbroken text ∧ Unbroken rest :=
  List.forall_mem_append

theorem unbroken_cons {c : Char} : Unbroken (c :: text) ↔ (c ≠ '\n' ∧ c ≠ '\r') ∧ Unbroken text :=
  List.forall_mem_cons

theorem unbroken_intercalate (hseparator : Unbroken separator) (parts : List (List Char)) :
    Unbroken (separator.intercalate parts) ↔ ∀ part ∈ parts, Unbroken part := by
  induction parts with
  | nil => simp [Unbroken]
  | cons part parts ih =>
    cases parts with
    | nil => simp
    | cons next parts =>
      rw [List.intercalate_cons_cons, unbroken_append, unbroken_append, ih, and_iff_left hseparator]
      exact List.forall_mem_cons.symm

theorem SingleQuoted.unbroken_encode (text : String) :
    Unbroken (SingleQuoted.encode text).toList ↔ Unbroken text.toList := by
  have hescape (chars : List Char) : Unbroken (SingleQuoted.escape chars) ↔ Unbroken chars := by
    induction chars with
    | nil => rfl
    | cons c chars ih =>
      have hbackslash : '\\' ≠ '\n' ∧ '\\' ≠ '\r' := by decide
      unfold SingleQuoted.escape
      split <;> simp only [unbroken_cons, ih, hbackslash, ne_eq, not_false_eq_true, and_self, true_and]
  have hquote : Unbroken ['\''] := by decide
  rw [SingleQuoted.encode, String.toList_ofList, ← List.singleton_append, List.append_assoc,
    unbroken_append, unbroken_append, hescape, and_iff_left hquote, and_iff_right hquote]

def lineEnds (text : List Char) : Nat :=
  text.countP fun c => c = '\n' ∨ c = '\r'

theorem lineEnds_eq_zero : lineEnds text = 0 ↔ Unbroken text := by
  simp [lineEnds, Unbroken, List.countP_eq_zero]

theorem lineEnds_joinLines_cons (line : String) (lines : List String) :
    lineEnds (joinLines (line :: lines)).toList =
      lineEnds line.toList + lineEnds (joinLines lines).toList + 1 := by
  have hfeed : lineEnds ('\n' :: (joinLines lines).toList) = lineEnds (joinLines lines).toList + 1 :=
    List.countP_cons_of_pos (by simp)
  have happend : lineEnds (line.toList ++ '\n' :: (joinLines lines).toList) =
    lineEnds line.toList + lineEnds ('\n' :: (joinLines lines).toList) := List.countP_append
  rw [toList_joinLines_cons, happend, hfeed, Nat.add_assoc]

theorem length_le_lineEnds_joinLines (lines : List String) :
    lines.length ≤ lineEnds (joinLines lines).toList := by
  induction lines with
  | nil => exact Nat.zero_le _
  | cons line lines ih =>
    rw [List.length_cons, lineEnds_joinLines_cons]
    omega

theorem lineEnds_joinLines_eq_length : lineEnds (joinLines lines).toList = lines.length ↔
    ∀ line ∈ lines, Unbroken line.toList := by
  induction lines with
  | nil => exact iff_of_true rfl (List.forall_mem_nil _)
  | cons line lines ih =>
    have hle := length_le_lineEnds_joinLines lines
    rw [lineEnds_joinLines_cons, List.forall_mem_cons, ← ih, ← lineEnds_eq_zero, List.length_cons]
    omega

end ContentTypes.Text
