import ContentTypes.Proofs.Diff.PatchText
import ContentTypes.Proofs.Diff.Ranges

/-!
# What a difference says

The counts of a difference are those of the lines inserted and deleted, and its text shows hunks that
turn the old text into the new one but for their ranges. With its ranges the text applies exactly if
the first and the last block are recorded at the ends of the texts. Only a block of deletions alone or
of insertions alone can be recorded elsewhere.
-/

namespace ContentTypes.Diff

open LineChange (before after)
open Text (Unbroken)

variable {label old new : String} {lines newLines : List String}

theorem join_linesOf (text : String) : String.join (linesOf text) = text := by
  rw [← String.toList_inj, String.toList_join, linesOf, List.flatMap_map]
  simpa [← List.flatten_eq_flatMap] using Text.flatten_splitLines text.toList

theorem linesOf_injective : Function.Injective linesOf := fun text other h => by
  rw [← join_linesOf text, h, join_linesOf]

theorem countP_pos (hne : lines ≠ newLines) :
    0 < (lineChanges lines newLines).countP (·.kind = .insert)
      + (lineChanges lines newLines).countP (·.kind = .delete) := by
  refine Nat.pos_of_ne_zero fun hzero => hne ?_
  rw [← before_lineChanges lines newLines,
    LineChange.before_eq_after _ (by omega) (by omega), after_lineChanges]

theorem hunks_ne_nil (hne : lines ≠ newLines) : hunks (blocks lines newLines) ≠ [] := by
  intro hnil
  obtain ⟨right, hchanges, happly, -⟩ := applyHunks_blocks lines newLines
  rw [hnil, List.map_nil, List.map_eq_nil_iff] at hchanges
  subst hchanges
  exact hne (Option.some.inj happly)

theorem readPatch?_difference (hlabel : Unbroken label.toList) (hold : '\r' ∉ old.toList)
    (hnew : '\r' ∉ new.toList) (hne : old ≠ new) :
    readPatch? (difference label old new).text =
      some ((hunks (blocks (linesOf old) (linesOf new))).map
        (·.patch (linesOf old) (linesOf new))) :=
  readPatch?_unified (fun _ h => isLine_of_mem hold h) (fun _ h => isLine_of_mem hnew h) hlabel
    (fun _ h => ne_nil_of_mem_cutHunks h) (hunks_ne_nil (linesOf_injective.ne hne))

/-- A difference says what becomes of every line. -/
theorem difference_describes (hlabel : Unbroken label.toList) (hold : '\r' ∉ old.toList)
    (hnew : '\r' ∉ new.toList) (hne : old ≠ new) :
    let changes := lineChanges (linesOf old) (linesOf new)
    let drift := difference label old new
    (String.join (before changes) = old ∧ String.join (after changes) = new) ∧
    (drift.added = changes.countP (·.kind = .insert) ∧
      drift.removed = changes.countP (·.kind = .delete) ∧
      (drift.added : Int) - drift.removed = (linesOf new).length - (linesOf old).length ∧
      0 < drift.added + drift.removed) ∧
    (∃ shown right, readPatch? drift.text = some shown ∧
      right.map (·.changes) = shown.map (·.changes) ∧
      applyHunks 0 0 right (linesOf old) = some (linesOf new)) ∧
    applyPatch? drift.text old =
      if EndsInPlace (linesOf old) (linesOf new) (blocks (linesOf old) (linesOf new)) then some new
      else none := by
  intro changes drift
  have hadded : drift.added = changes.countP (·.kind = .insert) := insertedLength_blocks _ _
  have hremoved : drift.removed = changes.countP (·.kind = .delete) := deletedLength_blocks _ _
  have hbefore := LineChange.length_before changes
  have hafter := LineChange.length_after changes
  rw [before_lineChanges] at hbefore
  rw [after_lineChanges] at hafter
  obtain ⟨right, hchanges, hright, happly⟩ := applyHunks_blocks (linesOf old) (linesOf new)
  have hread := readPatch?_difference hlabel hold hnew hne
  refine ⟨⟨?_, ?_⟩, ⟨hadded, hremoved, by omega, ?_⟩, ⟨_, right, hread, ?_, hright⟩, ?_⟩
  · rw [before_lineChanges, join_linesOf]
  · rw [after_lineChanges, join_linesOf]
  · rw [hadded, hremoved]
    exact countP_pos (linesOf_injective.ne hne)
  · rw [hchanges, List.map_map]
    rfl
  · rw [applyPatch?, hread, Option.bind_some, happly]
    split
    · rw [Option.map_some, join_linesOf]
    · rfl

/-- Settling moves the deletion down past what is inserted at the beginning, and it is still recorded
in front of that. So the range in the new text comes out as three lines where six are shown. -/
theorem difference_of_strayDeletion :
    let old := "\x7d\n  id: number;\nx\n"
    let new := "export interface A \x7b\n  id: number;\n\x7d\n\nexport interface CM_A \x7b\n\x7d\n"
    let drift := difference "components/A.ts" old new
    (Unbroken "components/A.ts".toList ∧ '\r' ∉ old.toList ∧ '\r' ∉ new.toList ∧ old ≠ new) ∧
      (drift.added : Int) - drift.removed = (linesOf new).length - (linesOf old).length ∧
      applyPatch? drift.text old = none := by
  intro old new drift
  have hlabel : Unbroken "components/A.ts".toList := by decide
  have hold : '\r' ∉ old.toList := by decide +kernel
  have hnew : '\r' ∉ new.toList := by decide +kernel
  have hne : old ≠ new := by decide +kernel
  obtain ⟨-, ⟨-, -, hcounts, -⟩, -, happly⟩ := difference_describes hlabel hold hnew hne
  refine ⟨⟨hlabel, hold, hnew, hne⟩, hcounts, ?_⟩
  rw [happly, if_neg (by decide +kernel)]

example : applyPatch? (difference "Tag.ts" "a\nb\n" "a\nc\nd").text "a\nb\n" = some "a\nc\nd" := by
  decide +kernel

end ContentTypes.Diff
