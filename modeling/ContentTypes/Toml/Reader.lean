import ContentTypes.Toml.Document
import ContentTypes.Toml.Lexeme

/-!
# Reading TOML

A text either is a TOML document, and then gives a table, or it is not. Arrays and inline tables may
be nested 79 deep.
-/

namespace ContentTypes.Toml

/-- Reads a value of one of the forms that hold no other values. A moment comes before a number, as
both begin with digits. -/
def scalar? (text : List Char) : Option (Value × List Char) :=
  match text with
  | [] => none
  | 't' :: 'r' :: 'u' :: 'e' :: rest => some (.boolean true, rest)
  | 'f' :: 'a' :: 'l' :: 's' :: 'e' :: rest => some (.boolean false, rest)
  | c :: _ =>
    if c = '"' ∨ c = '\'' then (string? text).map fun (text, rest) => (.string text, rest)
    else
      match moment? text with
      | some (moment, rest) => some (.moment moment, rest)
      | none =>
        match float? text with
        | some (value, rest) => some (.float value, rest)
        | none =>
          match specialFloat? text with
          | some (value, rest) => some (.float value, rest)
          | none => (integer? text).map fun (value, rest) => (.integer value, rest)

/-- Reads the items of an array after its bracket, with the closing one. A comma may stand after the
last item. There are at most `limit` items. -/
def items? (item : List Char → Option (Value × List Char)) (done : List Value) :
    (limit : Nat) → List Char → Option (List Value × List Char)
  | 0, _ => none
  | limit + 1, text =>
    match skipFiller false text with
    | ']' :: rest => some (done.reverse, rest)
    | text => do
      let (value, rest) ← item text
      match skipFiller false rest with
      | ',' :: rest => items? item (value :: done) limit rest
      | ']' :: rest => pure ((value :: done).reverse, rest)
      | _ => none

def member? (item : List Char → Option (Value × List Char)) (text : List Char) :
    Option ((List String × Value) × List Char) := do
  let (key, rest) ← key? text
  let (value, rest) ← item (skipBlanks (← expect? '=' rest))
  pure ((key, value), skipBlanks rest)

def moreMembers? (item : List Char → Option (Value × List Char))
    (done : List (List String × Value)) :
    (limit : Nat) → List Char → Option (List (List String × Value) × List Char)
  | 0, _ => none
  | limit + 1, text =>
    match text with
    | '}' :: rest => some (done.reverse, rest)
    | ',' :: rest => do
      let (member, rest) ← member? item rest
      moreMembers? item (member :: done) limit rest
    | _ => none

def members? (item : List Char → Option (Value × List Char)) (limit : Nat) (text : List Char) :
    Option (List (List String × Value) × List Char) :=
  match skipBlanks text with
  | '}' :: rest => some ([], rest)
  | text => do
    let (member, rest) ← member? item text
    moreMembers? item [member] limit rest

def value? (limit : Nat) : (room : Nat) → List Char → Option (Value × List Char)
  | 0, text => scalar? text
  | room + 1, text =>
    match text with
    | '[' :: rest => (items? (value? limit room) [] limit rest).map fun (items, rest) =>
      (.array items, rest)
    | '{' :: rest => do
      let (members, rest) ← members? (value? limit room) limit rest
      pure (← inlineTable? members, rest)
    | text => scalar? text

def maximalDepth : Nat := 79

def header? (draft : Draft) (text : List Char) : Option (Draft × List Char) :=
  match text with
  | '[' :: rest => do
    let (key, rest) ← key? rest
    let rest ← lineEnd? (← expect? ']' (← expect? ']' rest))
    pure (← draft.openArray key, rest)
  | text => do
    let (key, rest) ← key? text
    let rest ← lineEnd? (← expect? ']' rest)
    pure (← draft.openTable key, rest)

def lines? (limit : Nat) (draft : Draft) : (lines : Nat) → List Char → Option Draft
  | 0, _ => none
  | lines + 1, text =>
    match skipBlanks text with
    | [] => some draft
    | '[' :: rest => do
      let (draft, rest) ← header? draft rest
      lines? limit draft lines rest
    | c :: rest =>
      if c = '#' ∨ c = '\n' ∨ c = '\r' then do
        lines? limit draft lines (← lineEnd? (c :: rest))
      else do
        let ((key, value), rest) ← member? (value? limit maximalDepth) (c :: rest)
        lines? limit (← draft.addValue key value) lines (← lineEnd? rest)

def ofText? (text : String) : Option (List (String × Value)) := do
  let characters := match text.toList with
    | '\uFEFF' :: rest => rest
    | characters => characters
  let limit := characters.length + 1
  let draft ← lines? limit {} limit characters
  pure (entriesToValues (← draft.close))

end ContentTypes.Toml
