import ContentTypes.Diff.Hunk

/-!
# Unified diffs

The text of a diff: two lines that name the file, and for each hunk its place and its lines, each
with a mark in front.
-/

namespace ContentTypes.Diff

def linesOf (text : String) : List String :=
  (Text.splitLines text.toList).map String.ofList

/-- A marked line. One that does not end its text's line is followed by a remark. -/
def markedLine (mark : Char) (line : String) : String :=
  let ended := line.toList.getLast?.any fun c => c = '\n' || c = '\r'
  String.ofList [mark] ++ line ++ if ended then "" else "\n\\ No newline at end of file\n"

/-- A range of `length` lines from `start` on, counted from zero. -/
def rangeText (start length : Nat) : String :=
  if length = 1 then toString (start + 1)
  else toString (if length = 0 then start else start + 1) ++ "," ++ toString length

namespace Block

def text (old new : List String) (block : Block) : String :=
  if block.isEqual then String.join ((block.oldLines old).map (markedLine ' '))
  else
    String.join ((block.oldLines old).map (markedLine '-'))
      ++ String.join ((block.newLines new).map (markedLine '+'))

end Block

namespace Hunk

def header (hunk : Hunk) : String :=
  match hunk.head?, hunk.getLast? with
  | some first, some last =>
    "@@ -" ++ rangeText first.old (last.old + last.oldLength - first.old) ++ " +"
      ++ rangeText first.new (last.new + last.newLength - first.new) ++ " @@\n"
  | _, _ => ""

def text (old new : List String) (hunk : Hunk) : String :=
  header hunk ++ String.join (hunk.map (Block.text old new))

end Hunk

structure Difference where
  added : Nat
  removed : Nat
  text : String
  deriving DecidableEq, Repr

def unified (label : String) (old new : List String) (blocks : List Block) : String :=
  match hunks blocks with
  | [] => ""
  | first :: rest =>
    "--- a/" ++ label ++ "\n+++ b/" ++ label ++ "\n"
      ++ String.join ((first :: rest).map (Hunk.text old new))

def difference (label old new : String) : Difference :=
  let oldLines := linesOf old
  let newLines := linesOf new
  let found := blocks oldLines newLines
  let changes := found.filter (!·.isEqual)
  { added := changes.foldr (fun block count => block.newLength + count) 0
    removed := changes.foldr (fun block count => block.oldLength + count) 0
    text := unified label oldLines newLines found }

end ContentTypes.Diff
