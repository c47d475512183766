import ContentTypes.Diff.Settle
import ContentTypes.Text

/-!
# Changes and hunks

Between two runs of equal lines, all deletions and insertions make up one change. A hunk holds changes
that lie close to each other, with up to three equal lines around each.
-/

namespace ContentTypes.Diff

/-- A run of lines in the old text and what takes its place in the new one. -/
structure Block where
  isEqual : Bool
  old : Nat
  oldLength : Nat
  new : Nat
  newLength : Nat
  deriving DecidableEq, Repr

namespace Block

/-- The block of the deletions and insertions between two runs of equal lines. It stands where the
first deletion and the first insertion do; if there is only one of them, where that one is recorded. -/
def ofChange? (edits : List Edit) : Option Block :=
  let deletions := edits.filter (·.kind = .delete)
  let insertions := edits.filter (·.kind = .insert)
  let deleted := totalLength deletions
  let inserted := totalLength insertions
  match deletions.head?, insertions.head? with
  | some d, some i => some ⟨false, d.old, deleted, i.new, inserted⟩
  | some d, none => some ⟨false, d.old, deleted, d.new, 0⟩
  | none, some i => some ⟨false, i.old, 0, i.new, inserted⟩
  | none, none => none

def ofEqual? (edits : List Edit) : Option Block :=
  let length := totalLength edits
  edits.head?.map fun first => ⟨true, first.old, length, first.new, length⟩

def ofEdits (edits : List Edit) : List Block :=
  (edits.splitBy fun a b => (a.kind = .equal) == (b.kind = .equal)).filterMap fun group =>
    if group.all (·.kind = .equal) then ofEqual? group else ofChange? group

def lastLines (block : Block) (count : Nat) : Block :=
  let skipped := block.oldLength - count
  { block with
    old := block.old + skipped
    new := block.new + skipped
    oldLength := block.oldLength - skipped
    newLength := block.newLength - skipped }

def firstLines (block : Block) (count : Nat) : Block :=
  { block with
    oldLength := min block.oldLength count
    newLength := min block.newLength count }

def oldLines (block : Block) (old : List String) : List String :=
  slice old block.old block.oldLength

def newLines (block : Block) (new : List String) : List String :=
  slice new block.new block.newLength

end Block

def blocks (old new : List String) : List Block :=
  Block.ofEdits (settle old new (search old new))

def contextLines : Nat := 3

def trimFront : List Block → List Block
  | block :: rest => (if block.isEqual then block.lastLines contextLines else block) :: rest
  | [] => []

def trimBack (blocks : List Block) : List Block :=
  match blocks.reverse with
  | block :: rest =>
    ((if block.isEqual then block.firstLines contextLines else block) :: rest).reverse
  | [] => []

abbrev Hunk := List Block

/-- Cuts blocks into hunks where equal lines are left out. `current` is the hunk so far, the last block
first. A hunk without a change is dropped. -/
def cutHunks (current : Hunk) : List Block → List Hunk
  | [] => if current.all (·.isEqual) then [] else [current.reverse]
  | block :: rest =>
    if block.isEqual ∧ 2 * contextLines < block.oldLength then
      (block.firstLines contextLines :: current).reverse
        :: cutHunks [block.lastLines contextLines] rest
    else cutHunks (block :: current) rest

def hunks (blocks : List Block) : List Hunk :=
  cutHunks [] (trimBack (trimFront blocks))

end ContentTypes.Diff
