import ContentTypes.Proofs.Diff.LineChanges

/-!
# Applying hunks

A hunk gives a range of lines in each text and says what becomes of the lines. Hunks are applied
from the first to the last, and the lines between them are copied. No hunk is looked for elsewhere: it
is refused if a range has not as many lines as are shown, if its lines are not those at its place, or
if it would not come to stand where it says in the new text.

Hunks of blocks that stand where they are recorded turn the one text into the other.
-/

namespace ContentTypes.Diff

open LineChange (before after)

variable {old new : List String} {i j i' j' done made : Nat}

@[ext]
structure PatchHunk where
  oldStart : Nat
  oldLength : Nat
  newStart : Nat
  newLength : Nat
  changes : List LineChange
  deriving DecidableEq, Repr

/-- The hunk fits after `done` lines of the old text and `made` of the new one. The `lines` are what
is left of the old text. -/
structure PatchHunk.FitsAt (done made : Nat) (lines : List String) (hunk : PatchHunk) : Prop where
  start_le : done ≤ hunk.oldStart
  gap_le : hunk.oldStart - done ≤ lines.length
  newStart_eq : hunk.newStart = made + (hunk.oldStart - done)
  oldLength_eq : hunk.oldLength = (before hunk.changes).length
  newLength_eq : hunk.newLength = (after hunk.changes).length
  lines_eq : before hunk.changes <+: lines.drop (hunk.oldStart - done)

instance (lines : List String) (hunk : PatchHunk) : Decidable (hunk.FitsAt done made lines) :=
  decidable_of_iff (_ ∧ _ ∧ _ ∧ _ ∧ _ ∧ _)
    ⟨fun ⟨a, b, c, d, e, f⟩ => ⟨a, b, c, d, e, f⟩, fun ⟨a, b, c, d, e, f⟩ => ⟨a, b, c, d, e, f⟩⟩

def applyHunks : (done made : Nat) → List PatchHunk → (lines : List String) → Option (List String)
  | _, _, [], lines => some lines
  | done, made, hunk :: hunks, lines =>
    if hunk.FitsAt done made lines then
      let gap := hunk.oldStart - done
      (applyHunks (hunk.oldStart + hunk.oldLength) (hunk.newStart + hunk.newLength) hunks
        (lines.drop (gap + hunk.oldLength))).map (lines.take gap ++ after hunk.changes ++ ·)
    else none

namespace Hunk

def oldStart (hunk : Hunk) : Nat :=
  (hunk.head?.map (·.old)).getD 0

def newStart (hunk : Hunk) : Nat :=
  (hunk.head?.map (·.new)).getD 0

def oldEnd (hunk : Hunk) : Nat :=
  (hunk.getLast?.map fun block => block.old + block.oldLength).getD 0

def newEnd (hunk : Hunk) : Nat :=
  (hunk.getLast?.map fun block => block.new + block.newLength).getD 0

def patch (old new : List String) (hunk : Hunk) : PatchHunk where
  oldStart := hunk.oldStart
  oldLength := hunk.oldEnd - hunk.oldStart
  newStart := hunk.newStart
  newLength := hunk.newEnd - hunk.newStart
  changes := hunk.flatMap (·.changes old new)

section
variable {hunk : Hunk}

theorem starts_of_tiles (hne : hunk ≠ []) (h : Tiles old new i j hunk i' j') :
    hunk.oldStart = i ∧ hunk.newStart = j := by
  obtain ⟨first, rest, rfl⟩ := List.exists_cons_of_ne_nil hne
  exact ⟨h.1.old_eq, h.1.new_eq⟩

theorem ends_of_tiles (hne : hunk ≠ []) (h : Tiles old new i j hunk i' j') :
    hunk.oldEnd = i' ∧ hunk.newEnd = j' := by
  obtain rfl | ⟨front, last, rfl⟩ := List.eq_nil_or_concat hunk
  · exact absurd rfl hne
  · rw [List.concat_eq_append] at h
    obtain ⟨k, l, -, hlast, rfl, rfl⟩ := Tiles.append_iff.1 h
    simp [oldEnd, newEnd, hlast.old_eq, hlast.new_eq]

theorem patch_of_tiles (hne : hunk ≠ []) (h : Tiles old new i j hunk i' j') :
    hunk.patch old new = ⟨i, i' - i, j, j' - j, hunk.flatMap (·.changes old new)⟩ := by
  obtain ⟨hold, hnew⟩ := starts_of_tiles hne h
  obtain ⟨hold', hnew'⟩ := ends_of_tiles hne h
  rw [patch, hold, hnew, hold', hnew']

end

end Hunk

/-- From the lines `i` and `j` on, there is nothing but equal lines around the hunks. -/
def Spaced (old new : List String) : (i j : Nat) → List Hunk → Prop
  | i, j, [] => old.drop i = new.drop j
  | i, j, hunk :: hunks => ∃ gap i' j', hunk ≠ [] ∧ Agree old new i j gap ∧
      Tiles old new (i + gap) (j + gap) hunk i' j' ∧ i' ≤ old.length ∧ j' ≤ new.length ∧
        Spaced old new i' j' hunks

theorem Spaced.apply {hunks : List Hunk} (h : Spaced old new i j hunks) :
    applyHunks i j (hunks.map (·.patch old new)) (old.drop i) = some (new.drop j) := by
  induction hunks generalizing i j with
  | nil => exact congrArg some h
  | cons hunk hunks ih =>
    obtain ⟨gap, i', j', hne, hgap, htiles, hi', hj', h⟩ := h
    obtain ⟨hle, hle'⟩ := htiles.le
    obtain ⟨hold, hnew⟩ := htiles.drop_eq
    have hlength := congrArg List.length hold
    have hlength' := congrArg List.length hnew
    simp only [List.length_append, List.length_drop] at hlength hlength'
    have hfits : (hunk.patch old new).FitsAt i j (old.drop i) := by
      rw [Hunk.patch_of_tiles hne htiles]
      constructor
      all_goals simp only [List.length_drop, Nat.add_sub_cancel_left]
      · omega
      · omega
      · omega
      · omega
      · exact ⟨_, by rw [List.drop_drop, hold]⟩
    simp only [List.map_cons, applyHunks, hfits, ↓reduceIte]
    rw [Hunk.patch_of_tiles hne htiles]
    simp only [Nat.add_sub_cancel_left, Nat.add_sub_cancel' hle, Nat.add_sub_cancel' hle',
      List.drop_drop]
    rw [show i + (gap + (i' - (i + gap))) = i' by omega, ih h, Option.map_some]
    rw [Block.drop_eq_slice_append new j gap, hnew, ← hgap.slice_eq, slice, List.append_assoc]

end ContentTypes.Diff
