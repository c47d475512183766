import ContentTypes.Diff.Unified
import ContentTypes.Proofs.Diff.Tiling

/-!
# Line changes

The blocks of two texts say of each line whether it is kept, deleted or inserted. The lines that are
not inserted are the old text, those that are not deleted the new one.
-/

namespace ContentTypes.Diff

variable {old new : List String} {i j i' j' : Nat} {block recorded placed : Block}

structure LineChange where
  kind : EditKind
  line : String
  deriving DecidableEq, Repr

namespace LineChange

def before (changes : List LineChange) : List String :=
  (changes.filter (·.kind ≠ .insert)).map (·.line)

def after (changes : List LineChange) : List String :=
  (changes.filter (·.kind ≠ .delete)).map (·.line)

variable (changes others : List LineChange) (lines : List String)

@[simp] theorem before_append : before (changes ++ others) = before changes ++ before others := by
  simp [before]

@[simp] theorem after_append : after (changes ++ others) = after changes ++ after others := by
  simp [after]

@[simp] theorem before_equal : before (lines.map (⟨.equal, ·⟩)) = lines := by
  simp [before, Function.comp_def, List.filter_map]

@[simp] theorem before_delete : before (lines.map (⟨.delete, ·⟩)) = lines := by
  simp [before, Function.comp_def, List.filter_map]

@[simp] theorem before_insert : before (lines.map (⟨.insert, ·⟩)) = [] := by
  simp [before]

@[simp] theorem after_equal : after (lines.map (⟨.equal, ·⟩)) = lines := by
  simp [after, Function.comp_def, List.filter_map]

@[simp] theorem after_delete : after (lines.map (⟨.delete, ·⟩)) = [] := by
  simp [after]

@[simp] theorem after_insert : after (lines.map (⟨.insert, ·⟩)) = lines := by
  simp [after, Function.comp_def, List.filter_map]

theorem length_before :
    (before changes).length + changes.countP (·.kind = .insert) = changes.length := by
  induction changes with
  | nil => rfl
  | cons change changes ih => cases h : change.kind <;> simp [before, h] at ih ⊢ <;> omega

theorem length_after :
    (after changes).length + changes.countP (·.kind = .delete) = changes.length := by
  induction changes with
  | nil => rfl
  | cons change changes ih => cases h : change.kind <;> simp [after, h] at ih ⊢ <;> omega

theorem before_eq_after (hinsert : changes.countP (·.kind = .insert) = 0)
    (hdelete : changes.countP (·.kind = .delete) = 0) : before changes = after changes := by
  rw [List.countP_eq_zero] at hinsert hdelete
  rw [before, after, List.filter_eq_self.2 (by simpa using hinsert),
    List.filter_eq_self.2 (by simpa using hdelete)]

end LineChange

open LineChange (before after)

-- ---------------------------------------------------------------------------
-- The changes of blocks
-- ---------------------------------------------------------------------------

namespace Block

def changes (old new : List String) (block : Block) : List LineChange :=
  if block.isEqual then (block.oldLines old).map (⟨.equal, ·⟩)
  else (block.oldLines old).map (⟨.delete, ·⟩) ++ (block.newLines new).map (⟨.insert, ·⟩)

theorem slice_zero (text : List String) (start : Nat) : slice text start 0 = [] := rfl

theorem RecordOf.changes_eq (h : RecordOf recorded placed) :
    recorded.changes old new = placed.changes old new := by
  cases h <;> simp [changes, oldLines, newLines, slice_zero]

theorem drop_eq_slice_append (text : List String) (start length : Nat) :
    text.drop start = slice text start length ++ text.drop (start + length) := by
  rw [slice, ← List.drop_drop, List.take_append_drop]

theorem StandsAt.drop_eq (h : block.StandsAt old new i j) :
    old.drop i = before (block.changes old new) ++ old.drop (i + block.oldLength) ∧
      new.drop j = after (block.changes old new) ++ new.drop (j + block.newLength) := by
  obtain ⟨rfl, rfl, hequal⟩ := h
  cases hb : block.isEqual with
  | true =>
    obtain ⟨-, hlength, ha⟩ := hequal hb
    simp only [changes, hb, ↓reduceIte, oldLines, LineChange.before_equal, LineChange.after_equal,
      hlength, ha.slice_eq, ← drop_eq_slice_append, and_true]
    rw [← ha.slice_eq, ← drop_eq_slice_append]
  | false =>
    simp [changes, hb, oldLines, newLines, ← drop_eq_slice_append]

end Block

theorem Tiles.drop_eq {blocks : List Block} (h : Tiles old new i j blocks i' j') :
    old.drop i = before (blocks.flatMap (·.changes old new)) ++ old.drop i' ∧
      new.drop j = after (blocks.flatMap (·.changes old new)) ++ new.drop j' := by
  induction blocks generalizing i j with
  | nil =>
    obtain ⟨rfl, rfl⟩ := h
    exact ⟨rfl, rfl⟩
  | cons block blocks ih =>
    obtain ⟨hold, hnew⟩ := h.1.drop_eq
    obtain ⟨hold', hnew'⟩ := ih h.2
    simp [List.flatMap_cons, List.append_assoc, ← hold', ← hnew', ← hold, ← hnew]

-- ---------------------------------------------------------------------------
-- Counts
-- ---------------------------------------------------------------------------

def insertedLength (blocks : List Block) : Nat :=
  (blocks.filter (!·.isEqual)).foldr (fun block count => block.newLength + count) 0

def deletedLength (blocks : List Block) : Nat :=
  (blocks.filter (!·.isEqual)).foldr (fun block count => block.oldLength + count) 0

theorem Block.StandsAt.counts (h : block.StandsAt old new i j)
    (hi : i + block.oldLength ≤ old.length) (hj : j + block.newLength ≤ new.length) :
    insertedLength [block] = (block.changes old new).countP (·.kind = .insert) ∧
      deletedLength [block] = (block.changes old new).countP (·.kind = .delete) := by
  obtain ⟨rfl, rfl, -⟩ := h
  cases hb : block.isEqual with
  | true =>
    simp [insertedLength, deletedLength, Block.changes, hb, List.countP_map, Function.comp_def]
  | false =>
    simp [insertedLength, deletedLength, Block.changes, hb, List.countP_map, Function.comp_def,
      Block.oldLines, Block.newLines, length_slice hi, length_slice hj]

theorem insertedLength_cons (block : Block) (blocks : List Block) :
    insertedLength (block :: blocks) = insertedLength [block] + insertedLength blocks := by
  cases hb : block.isEqual <;> simp [insertedLength, hb]

theorem deletedLength_cons (block : Block) (blocks : List Block) :
    deletedLength (block :: blocks) = deletedLength [block] + deletedLength blocks := by
  cases hb : block.isEqual <;> simp [deletedLength, hb]

theorem Tiles.counts {blocks : List Block} (h : Tiles old new i j blocks i' j')
    (hi : i' ≤ old.length) (hj : j' ≤ new.length) :
    insertedLength blocks = (blocks.flatMap (·.changes old new)).countP (·.kind = .insert) ∧
      deletedLength blocks = (blocks.flatMap (·.changes old new)).countP (·.kind = .delete) := by
  induction blocks generalizing i j with
  | nil => exact ⟨rfl, rfl⟩
  | cons block blocks ih =>
    obtain ⟨hle, hle'⟩ := h.2.le
    obtain ⟨hinserted, hdeleted⟩ := h.1.counts (by omega) (by omega)
    obtain ⟨hinserted', hdeleted'⟩ := ih h.2
    rw [insertedLength_cons, deletedLength_cons, hinserted, hdeleted, hinserted', hdeleted']
    simp [List.flatMap_cons]

theorem changes_of_record (old new : List String) {blocks placed : List Block}
    (h : List.Forall₂ Block.RecordOf blocks placed) :
    blocks.flatMap (·.changes old new) = placed.flatMap (·.changes old new) ∧
      insertedLength blocks = insertedLength placed ∧
        deletedLength blocks = deletedLength placed := by
  induction h with
  | nil => exact ⟨rfl, rfl, rfl⟩
  | @cons block place blocks places hrecord _ ih =>
    obtain ⟨hchanges, hinserted, hdeleted⟩ := ih
    rw [List.flatMap_cons, List.flatMap_cons, hrecord.changes_eq, hchanges,
      insertedLength_cons block, insertedLength_cons place, hinserted,
      deletedLength_cons block, deletedLength_cons place, hdeleted]
    cases hrecord <;> exact ⟨rfl, rfl, rfl⟩

-- ---------------------------------------------------------------------------
-- Two texts
-- ---------------------------------------------------------------------------

/-- What becomes of each line, in the order in which a diff shows it. -/
def lineChanges (old new : List String) : List LineChange :=
  (blocks old new).flatMap (·.changes old new)

theorem before_lineChanges (old new : List String) : before (lineChanges old new) = old := by
  obtain ⟨placed, hrecord, htiles⟩ := blocks_cover old new
  simpa [lineChanges, (changes_of_record old new hrecord).1] using htiles.drop_eq.1.symm

theorem after_lineChanges (old new : List String) : after (lineChanges old new) = new := by
  obtain ⟨placed, hrecord, htiles⟩ := blocks_cover old new
  simpa [lineChanges, (changes_of_record old new hrecord).1] using htiles.drop_eq.2.symm

theorem insertedLength_blocks (old new : List String) :
    insertedLength (blocks old new) = (lineChanges old new).countP (·.kind = .insert) := by
  obtain ⟨placed, hrecord, htiles⟩ := blocks_cover old new
  obtain ⟨hchanges, hinserted, -⟩ := changes_of_record old new hrecord
  rw [lineChanges, hchanges, hinserted, (htiles.counts le_rfl le_rfl).1]

theorem deletedLength_blocks (old new : List String) :
    deletedLength (blocks old new) = (lineChanges old new).countP (·.kind = .delete) := by
  obtain ⟨placed, hrecord, htiles⟩ := blocks_cover old new
  obtain ⟨hchanges, -, hdeleted⟩ := changes_of_record old new hrecord
  rw [lineChanges, hchanges, hdeleted, (htiles.counts le_rfl le_rfl).2]

end ContentTypes.Diff
