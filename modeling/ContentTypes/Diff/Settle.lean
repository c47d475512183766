import ContentTypes.Diff.Search

/-!
# Settling edits

Of the places where a deletion or an insertion could stand equally well, the last one is chosen: it
is moved up over equal lines as far as it goes, and then down, and joined to others of its kind on
the way. Moving past an edit of the other kind changes no line numbers.

The edits are seen from one of them, with those before it in reverse.
-/

namespace ContentTypes.Diff

structure Focus where
  before : List Edit
  here : Edit
  after : List Edit

namespace Edit

def shiftLeft (edit : Edit) (count : Nat) : Edit :=
  { edit with old := edit.old - count, new := edit.new - count }

def shiftRight (edit : Edit) (count : Nat) : Edit :=
  { edit with old := edit.old + count, new := edit.new + count }

def lengthen (edit : Edit) (count : Nat) : Edit :=
  { edit with length := edit.length + count }

def shorten (edit : Edit) (count : Nat) : Edit :=
  { edit with length := edit.length - count }

end Edit

/-- The room that the edits take, an upper bound of the moves over them. -/
def weight (edits : List Edit) : Nat :=
  edits.foldr (fun edit room => edit.length + 1 + room) 0

def moveUp (old new : List String) : (moves : Nat) → Focus → Focus
  | 0, focus => focus
  | moves + 1, ⟨before, here, after⟩ =>
    match before with
    | [] => ⟨[], here, after⟩
    | previous :: rest =>
      if previous.kind = .equal then
        let count := commonSuffix (previous.oldLines old) (here.newLines new)
        if count = 0 then
          if previous.length = 0 then moveUp old new moves ⟨rest, here, after⟩
          else ⟨before, here, after⟩
        else
          let after := match after with
            | next :: others =>
              if next.kind = .equal then (next.shiftLeft count).lengthen count :: others
              else ⟨.equal, previous.old + previous.length - count,
                here.new + here.length - count, count⟩ :: after
            | [] => [⟨.equal, previous.old + previous.length - count,
                here.new + here.length - count, count⟩]
          let previous := previous.shorten count
          moveUp old new moves
            ⟨if previous.length = 0 then rest else previous :: rest, here.shiftLeft count, after⟩
      else if previous.kind = here.kind then
        moveUp old new moves ⟨rest, previous.lengthen here.length, after⟩
      else
        moveUp old new moves ⟨rest, here, previous :: after⟩

def moveDown (old new : List String) : (moves : Nat) → Focus → Focus
  | 0, focus => focus
  | moves + 1, ⟨before, here, after⟩ =>
    match after with
    | [] => ⟨before, here, []⟩
    | next :: rest =>
      if next.kind = .equal then
        let count := commonPrefix (next.oldLines old) (here.newLines new)
        if count = 0 then
          if next.length = 0 then moveDown old new moves ⟨before, here, rest⟩
          else ⟨before, here, after⟩
        else
          let before := match before with
            | previous :: others =>
              if previous.kind = .equal then previous.lengthen count :: others
              else ⟨.equal, next.old, here.new, count⟩ :: before
            | [] => [⟨.equal, next.old, here.new, count⟩]
          let next := (next.shiftRight count).shorten count
          moveDown old new moves
            ⟨before, here.shiftRight count, if next.length = 0 then rest else next :: rest⟩
      else if next.kind = here.kind then
        moveDown old new moves ⟨before, here.lengthen next.length, rest⟩
      else
        moveDown old new moves ⟨next :: before, here, rest⟩

/-- Settles the edits of one kind from the first to the last. Each step goes to the next edit, of which
there are at most `steps`. -/
def settleFrom (old new : List String) (kind : EditKind) :
    (steps : Nat) → (before after : List Edit) → List Edit
  | 0, before, after => before.reverse ++ after
  | _ + 1, before, [] => before.reverse
  | steps + 1, before, here :: after =>
    if here.kind = kind then
      let up := moveUp old new (weight before) ⟨before, here, after⟩
      let down := moveDown old new (weight up.after) up
      settleFrom old new kind steps (down.here :: down.before) down.after
    else settleFrom old new kind steps (here :: before) after

def settleKind (old new : List String) (kind : EditKind) (edits : List Edit) : List Edit :=
  settleFrom old new kind (weight edits + old.length + new.length) [] edits

def settle (old new : List String) (edits : List Edit) : List Edit :=
  settleKind old new .insert (settleKind old new .delete edits)

end ContentTypes.Diff
