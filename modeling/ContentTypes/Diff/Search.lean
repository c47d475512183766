/-!
# Edits and the search for them

An edit keeps, deletes or inserts a run of lines. It records where it stands in both texts: a
deletion also where it would stand in the new text, an insertion where it would stand in the old one.

Two texts are split at a point that a shortest sequence of edits passes, found by following the
furthest paths from both ends at the same time, one edit more in each round. The parts are treated in
the same way, after what they have in common at their ends is taken off.
-/

namespace ContentTypes.Diff

inductive EditKind where
  | equal
  | delete
  | insert
  deriving DecidableEq, Repr

structure Edit where
  kind : EditKind
  old : Nat
  new : Nat
  length : Nat
  deriving DecidableEq, Repr

def slice (lines : List String) (start length : Nat) : List String :=
  (lines.drop start).take length

namespace Edit

def oldLines (edit : Edit) (old : List String) : List String :=
  match edit.kind with
  | .equal | .delete => slice old edit.old edit.length
  | .insert => []

def newLines (edit : Edit) (new : List String) : List String :=
  match edit.kind with
  | .equal | .insert => slice new edit.new edit.length
  | .delete => []

end Edit

def totalLength (edits : List Edit) : Nat :=
  edits.foldr (fun edit count => edit.length + count) 0

def commonPrefix : List String → List String → Nat
  | a :: as, b :: bs => if a = b then commonPrefix as bs + 1 else 0
  | _, _ => 0

def commonSuffix (a b : List String) : Nat :=
  commonPrefix a.reverse b.reverse

/-- The furthest points reached by `d` edits on the diagonals `d, d - 2, …, -d`, each given by its
distance along the old text. -/
abbrev Frontier := List Nat

namespace Frontier

/-- The points from which the diagonals between two of the last round go on: by a deletion from the
one above or by an insertion from the one below, whichever reaches further. -/
def between : Frontier → Frontier
  | above :: below :: rest =>
    (if below < above then above else below + 1) :: between (below :: rest)
  | rest => rest

def next : Frontier → Frontier
  | [] => [0]
  | first :: rest => (first + 1) :: between (first :: rest)

end Frontier

def pointOn? (frontier : Array Nat) (diagonal : Int) : Option Nat :=
  let top : Int := frontier.size - 1
  if diagonal.natAbs ≤ top then frontier[((top - diagonal) / 2).toNat]? else none

def runEnd (holds : Nat → Bool) (start : Nat) : (limit : Nat) → Nat
  | 0 => start
  | limit + 1 => if holds start then runEnd holds (start + 1) limit else start

structure Run where
  diagonal : Int
  first : Nat
  last : Nat

namespace Run

def height (run : Run) (x : Nat) : Nat :=
  (x - run.diagonal).toNat

end Run

/-- The runs of a round. `same x y` says whether the lines at distances `x` and `y` are equal; `n` and
`m` are the lengths of the texts. -/
def runs (same : Nat → Nat → Bool) (n m : Nat) (starts : Frontier) : List Run :=
  let top : Int := starts.length - 1
  starts.mapIdx fun (index x : Nat) =>
    let diagonal := top - 2 * index
    let y := (x - diagonal).toNat
    let holds := fun i => same i (i - diagonal).toNat
    ⟨diagonal, x, if x < n ∧ y < m then runEnd holds x (min (n - x) (m - y)) else x⟩

def meeting? (n : Nat) (delta : Int) (other : Frontier) (round : List Run) : Option Run :=
  let points := other.toArray
  round.find? fun run =>
    match pointOn? points (delta - run.diagonal) with
    | some x => n ≤ run.last + x
    | none => false

def middleFrom (old new : Array String) (forward backward : Frontier) :
    (rounds : Nat) → Option (Nat × Nat)
  | 0 => none
  | rounds + 1 =>
    let n := old.size
    let m := new.size
    let delta : Int := n - m
    let odd := delta % 2 = 1
    let ahead := runs (fun x y => old[x]? == new[y]?) n m forward.next
    match if odd then meeting? n delta backward ahead else none with
    | some run => some (run.first, run.height run.first)
    | none =>
      let forward := ahead.map (·.last)
      let back := runs (fun x y => old[n - 1 - x]? == new[m - 1 - y]?) n m backward.next
      match if odd then none else meeting? n delta forward back with
      | some run => some (n - run.last, m - run.height run.last)
      | none => middleFrom old new forward (back.map (·.last)) rounds

def middle? (old new : List String) : Option (Nat × Nat) :=
  middleFrom old.toArray new.toArray [] [] ((old.length + new.length + 1) / 2 + 1)

/-- The edits for two texts that begin at the lines `oldStart` and `newStart` of the whole ones. There
are at most `depth` splits. -/
def searchFrom : (depth oldStart newStart : Nat) → (old new : List String) → List Edit
  | 0, i, j, old, new => [⟨.delete, i, j, old.length⟩, ⟨.insert, i, j, new.length⟩]
  | depth + 1, i, j, old, new =>
    let front := commonPrefix old new
    let oldRest := old.drop front
    let newRest := new.drop front
    let back := commonSuffix oldRest newRest
    let oldPart := oldRest.take (oldRest.length - back)
    let newPart := newRest.take (newRest.length - back)
    let (i', j') := (i + front, j + front)
    let inner :=
      match oldPart, newPart with
      | [], [] => []
      | _, [] => [⟨.delete, i', j', oldPart.length⟩]
      | [], _ => [⟨.insert, i', j', newPart.length⟩]
      | _, _ =>
        match middle? oldPart newPart with
        | some (x, y) =>
          let (oldHead, newHead) := (oldPart.take x, newPart.take y)
          searchFrom depth i' j' oldHead newHead
            ++ searchFrom depth (i' + oldHead.length) (j' + newHead.length)
              (oldPart.drop x) (newPart.drop y)
        | none => [⟨.delete, i', j', oldPart.length⟩, ⟨.insert, i', j', newPart.length⟩]
    (if front = 0 then [] else [⟨.equal, i, j, front⟩])
      ++ inner
      ++ (if back = 0 then [] else [⟨.equal, i' + oldPart.length, j' + newPart.length, back⟩])

def search (old new : List String) : List Edit :=
  searchFrom (old.length + new.length) 0 0 old new

end ContentTypes.Diff
