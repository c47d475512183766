import ContentTypes.Assoc
import ContentTypes.Toml.Value

/-!
# How a TOML document is built

Headers and dotted keys add to a tree of nodes, and no part of it may be defined twice. A table that
only lies on the way to another one is implicit and may still be defined by a header; one that came
about by a dotted key may only be extended by dotted keys.
-/

namespace ContentTypes.Toml

inductive Node where
  | value (value : Value)
  | table (implicit dotted : Bool) (entries : List (String × Node))
  | tables (items : List (List (String × Node)))

abbrev Entries := List (String × Node)

namespace Entries

def remove (key : String) (entries : Entries) : Entries :=
  entries.filter (·.1 ≠ key)

/-- Changes the table at `path` by `change`, which is also told whether that table came about by a
dotted key. Tables on the way are made as they are needed. With `byKey` the path is part of a dotted
key, and all tables on it have to be implicit. -/
def modifyAt (byKey : Bool) (change : (isDotted : Bool) → Entries → Option Entries) :
    (path : List String) → (isDotted : Bool) → Entries → Option Entries
  | [], isDotted, entries => change isDotted entries
  | key :: path, _, entries =>
    match entries.lookup key with
    | none => do
      let inner ← modifyAt byKey change path byKey []
      pure (Assoc.set key (.table true byKey inner) entries)
    | some (.table implicit isDotted inner) =>
      if byKey && !implicit then none
      else do
        let inner ← modifyAt byKey change path isDotted inner
        pure (Assoc.set key (.table implicit isDotted inner) entries)
    | some (.tables (last :: others)) => do
      let last ← modifyAt byKey change path false last
      pure (Assoc.set key (.tables (last :: others)) entries)
    | some (.tables []) | some (.value _) => none

/-- Adds a value under a key that is not there. The last part of a dotted key belongs to a table made
by dotted keys, a plain key to one made by a header. -/
def addValue (path : List String) (key : String) (value : Value) (entries : Entries) :
    Option Entries :=
  modifyAt true (fun isDotted inner =>
    if isDotted = path.isEmpty then none
    else if (inner.lookup key).isSome then none
    else some (inner ++ [(key, .value value)])) path false entries

end Entries

mutual

def Node.toValue : Node → Value
  | .value value => value
  | .table _ _ entries => .table (entriesToValues entries)
  | .tables items => .array (tablesToValues items).reverse

def entriesToValues : List (String × Node) → List (String × Value)
  | [] => []
  | (key, node) :: rest => (key, node.toValue) :: entriesToValues rest

def tablesToValues : List (List (String × Node)) → List Value
  | [] => []
  | entries :: rest => .table (entriesToValues entries) :: tablesToValues rest

end

def splitKey (key : List String) : Option (List String × String) :=
  key.getLast?.map fun last => (key.dropLast, last)

def inlineTable? (members : List (List String × Value)) : Option Value := do
  let entries ← members.foldlM (fun (entries : Entries) (key, value) => do
    let (path, last) ← splitKey key
    entries.addValue path last value) []
  pure (.table (entriesToValues entries))

structure Draft where
  root : Entries := []
  current : Entries := []
  path : List String := []
  isArray : Bool := false

namespace Draft

def close (draft : Draft) : Option Entries :=
  match splitKey draft.path with
  | none => some draft.current
  | some (path, last) =>
    draft.root.modifyAt false (fun _ inner =>
      if draft.isArray then
        match inner.lookup last with
        | some (.tables items) => some (Assoc.set last (.tables (draft.current :: items)) inner)
        | none => some (inner ++ [(last, .tables [draft.current])])
        | some _ => none
      else
        match inner.lookup last with
        | some (.table true _ _) => some (Assoc.set last (.table false false draft.current) inner)
        | none => some (inner ++ [(last, .table false false draft.current)])
        | some _ => none) path false

def addValue (draft : Draft) (key : List String) (value : Value) : Option Draft := do
  let (path, last) ← splitKey key
  pure { draft with current := ← draft.current.addValue path last value }

/-- The entries of an implicit table that a header may define, or none if there is no table yet. -/
def claimed? (inner : Entries) (key : String) : Option Entries :=
  match inner.lookup key with
  | some (.table true false entries) => some entries
  | none => some []
  | some _ => none

def tableAt? : (path : List String) → Entries → Option Entries
  | [], entries => some entries
  | key :: path, entries =>
    match entries.lookup key with
    | none => some []
    | some (.table _ _ inner) => tableAt? path inner
    | some (.tables (last :: _)) => tableAt? path last
    | some (.tables []) | some (.value _) => none

/-- Begins the table of a header in single brackets. Tables that are in it already stay. -/
def openTable (draft : Draft) (key : List String) : Option Draft := do
  let root ← draft.close
  let (path, last) ← splitKey key
  let current ← claimed? (← tableAt? path root) last
  let root ← root.modifyAt false (fun _ inner => some (inner.remove last)) path false
  pure { root, current, path := key, isArray := false }

def openArray (draft : Draft) (key : List String) : Option Draft := do
  let root ← draft.close
  let (path, last) ← splitKey key
  let root ← root.modifyAt false (fun _ inner =>
    match inner.lookup last with
    | some (.tables _) => some inner
    | none => some (inner ++ [(last, .tables [])])
    | some _ => none) path false
  pure { root, current := [], path := key, isArray := true }

end Draft

end ContentTypes.Toml
