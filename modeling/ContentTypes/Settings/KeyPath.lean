import ContentTypes.Settings.Setting

/-!
# Key paths

The keys of a source may lead into tables and sequences, as `paths.output_dir` and `include[0]`. Tables
and sequences on the way are made as they are needed, in place of what is no such thing.
-/

namespace ContentTypes.Settings

inductive KeyStep where
  | entry (key : String)
  | item (index : Int)
  deriving DecidableEq, Repr

structure KeyPath where
  first : String
  steps : List KeyStep
  deriving DecidableEq, Repr

namespace KeyPath

def isIdentifierChar (c : Char) : Bool :=
  c.isAlphanum || c = ' ' || c = '_' || c = '-'

def isIndexBlank (c : Char) : Bool :=
  c = ' ' || c = '\t' || c = '\r' || c = '\n'

def identifier? (text : List Char) : Option (String × List Char) :=
  match text.takeWhile isIdentifierChar with
  | [] => none
  | name => some (String.ofList name, text.dropWhile isIdentifierChar)

def index? (text : List Char) : Option (Int × List Char) :=
  let (negative, rest) := match text.dropWhile isIndexBlank with
    | '-' :: rest => (true, rest)
    | rest => (false, rest)
  let digits := rest.takeWhile Char.isDigit
  let size := digits.foldl (fun n c => n * 10 + (c.toNat - '0'.toNat)) 0
  match (rest.drop digits.length).dropWhile isIndexBlank with
  | ']' :: rest =>
    if digits = [] then none
    else (Integer64.ofSize? negative size).map fun index => (index, rest)
  | _ => none

def steps? : (limit : Nat) → List Char → Option (List KeyStep)
  | _, [] => some []
  | 0, _ => none
  | limit + 1, '.' :: rest => do
    let (key, rest) ← identifier? rest
    pure (.entry key :: (← steps? limit rest))
  | limit + 1, '[' :: rest => do
    let (index, rest) ← index? rest
    pure (.item index :: (← steps? limit rest))
  | _, _ => none

/-- A key that is no path is one plain key. -/
def ofText (text : String) : KeyPath :=
  let path? : Option KeyPath := do
    let (first, rest) ← identifier? text.toList
    pure ⟨first, ← steps? rest.length rest⟩
  path?.getD ⟨text, []⟩

end KeyPath

end Settings

namespace Setting

/-- The place of an index among `count` items; a negative one counts from the end. -/
def placeOf (index : Int) (count : Nat) : Nat :=
  if 0 ≤ index then index.toNat else count - index.natAbs

def changeItem (change : Setting → Setting) (index : Nat) (items : List Setting) : List Setting :=
  let items := items ++ List.replicate (index + 1 - items.length) (null none)
  items.modify index change

def setAt (value : Setting) : List Settings.KeyStep → Setting → Setting
  | [], _ => value
  | [.entry key], target => target.withEntries (setEntry key target.entries value)
  | .entry key :: steps, target =>
    let inner := (target.entries.lookup key).getD (null none)
    target.withEntries (Assoc.set key (setAt value steps inner) target.entries)
  | .item index :: steps, target =>
    target.withItems
      (changeItem (setAt value steps) (placeOf index target.items.length) target.items)

def setPath (root : Setting) (path : Settings.KeyPath) (value : Setting) : Setting :=
  setAt value (.entry path.first :: path.steps) root

def applySource (root : Setting) (source : List (String × Setting)) : Setting :=
  source.foldl (fun root (key, value) => root.setPath (.ofText key) value) root

/-- All sources in one table, later ones over earlier ones. The outcome is applied once more, to an
empty table, which brings the keys on all paths to lower case. -/
def mergeSources (sources : List (List (String × Setting))) : Setting :=
  let once := sources.foldl applySource (table none [])
  applySource (table none []) once.entries

end Setting

end ContentTypes
