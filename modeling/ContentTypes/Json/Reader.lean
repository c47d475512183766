import ContentTypes.Assoc
import ContentTypes.Json.Number

/-!
# Reading JSON

Each function reads one part of a text from its beginning and gives what follows it. Values may be
nested 127 deep.
-/

namespace ContentTypes.Json

def isBlank (c : Char) : Bool :=
  c = ' ' || c = '\n' || c = '\t' || c = '\r'

def skipBlanks (text : List Char) : List Char :=
  text.dropWhile isBlank

def readWord : (word : List Char) → List Char → Except Fault (List Char)
  | [], text => .ok text
  | _ :: _, [] => .error (.before .endInValue [])
  | c :: word, d :: text =>
    if d = c then readWord word text else .error (.inside .wordExpected (d :: text))

def hexValue? (c : Char) : Option Nat :=
  if c.isDigit then some (c.toNat - '0'.toNat)
  else if 'a' ≤ c ∧ c ≤ 'f' then some (c.toNat - 'a'.toNat + 10)
  else if 'A' ≤ c ∧ c ≤ 'F' then some (c.toNat - 'A'.toNat + 10)
  else none

def hexValue4? (a b c d : Char) : Option Nat := do
  let a ← hexValue? a
  let b ← hexValue? b
  let c ← hexValue? c
  let d ← hexValue? d
  pure (((a * 16 + b) * 16 + c) * 16 + d)

def hexFault (text : List Char) : Fault :=
  if byteCount text < 4 then ⟨.endInString, 0⟩ else ⟨.invalidEscape, byteCount text - 4⟩

def isLeadingSurrogate (code : Nat) : Bool :=
  0xD800 ≤ code && code ≤ 0xDBFF

def isTrailingSurrogate (code : Nat) : Bool :=
  0xDC00 ≤ code && code ≤ 0xDFFF

def ofSurrogates (leading trailing : Nat) : Char :=
  Char.ofNat (0x10000 + (leading - 0xD800) * 0x400 + (trailing - 0xDC00))

def shortEscape? (c : Char) : Option Char :=
  match c with
  | '"' => some '"'
  | '\\' => some '\\'
  | '/' => some '/'
  | 'b' => some '\x08'
  | 'f' => some '\x0c'
  | 'n' => some '\n'
  | 'r' => some '\r'
  | 't' => some '\t'
  | _ => none

/-- Reads a string after its opening quote. `done` holds the characters read, the last one first. -/
def readString (done : List Char) : List Char → Except Fault (String × List Char)
  | [] => .error (.before .endInString [])
  | '"' :: rest => .ok (String.ofList done.reverse, rest)
  | '\\' :: 'u' :: text =>
    match text with
    | a :: b :: c :: d :: rest =>
      match hexValue4? a b c d with
      | none => .error (hexFault text)
      | some code =>
        if isTrailingSurrogate code then .error (.before .loneSurrogate rest)
        else if !isLeadingSurrogate code then readString (Char.ofNat code :: done) rest
        else
          match rest with
          | '\\' :: 'u' :: text =>
            match text with
            | a :: b :: c :: d :: rest =>
              match hexValue4? a b c d with
              | none => .error (hexFault text)
              | some trailing =>
                if isTrailingSurrogate trailing then
                  readString (ofSurrogates code trailing :: done) rest
                else .error (.before .loneSurrogate rest)
            | _ => .error (hexFault text)
          | ['\\'] => .error (.before .endInString [])
          | '\\' :: rest => .error (.inside .hexEscapeEnds rest)
          | [] => .error (.before .endInString [])
          | rest => .error (.inside .hexEscapeEnds rest)
    | _ => .error (hexFault text)
  | '\\' :: c :: rest =>
    match shortEscape? c with
    | some d => readString (d :: done) rest
    | none => .error (.inside .invalidEscape (c :: rest))
  | ['\\'] => .error (.before .endInString [])
  | c :: rest =>
    if c < ' ' then .error (.inside .controlCharacter (c :: rest))
    else readString (c :: done) rest

def readScalar (text : List Char) : Except Fault (Value × List Char) :=
  match text with
  | [] => .error (.inside .endInValue [])
  | 'n' :: rest => do pure (.null, ← readWord ['u', 'l', 'l'] rest)
  | 't' :: rest => do pure (.boolean true, ← readWord ['r', 'u', 'e'] rest)
  | 'f' :: rest => do pure (.boolean false, ← readWord ['a', 'l', 's', 'e'] rest)
  | '"' :: rest => do
    let (string, rest) ← readString [] rest
    pure (.string string, rest)
  | c :: _ =>
    if c = '-' ∨ c.isDigit then do
      let (number, rest) ← readNumber text
      pure (.number number, rest)
    else .error (.inside .valueExpected text)

/-- Whether another item of a list follows, and the text from it or from the bracket on. -/
def nextItem (isFirst : Bool) (text : List Char) : Except Fault (Bool × List Char) :=
  match skipBlanks text with
  | [] => .error (.inside .endInList [])
  | ']' :: rest => .ok (false, ']' :: rest)
  | c :: rest =>
    if isFirst then .ok (true, c :: rest)
    else if c = ',' then
      match skipBlanks rest with
      | [] => .error (.inside .endInValue [])
      | ']' :: rest => .error (.inside .trailingComma (']' :: rest))
      | rest => .ok (true, rest)
    else .error (.inside .listCommaExpected (c :: rest))

def nextKey (isFirst : Bool) (text : List Char) : Except Fault (Bool × List Char) :=
  match skipBlanks text with
  | [] => .error (.inside .endInObject [])
  | '}' :: rest => .ok (false, '}' :: rest)
  | c :: rest =>
    if isFirst then
      if c = '"' then .ok (true, rest) else .error (.inside .keyNotString (c :: rest))
    else if c = ',' then
      match skipBlanks rest with
      | [] => .error (.inside .endInValue [])
      | '"' :: rest => .ok (true, rest)
      | '}' :: rest => .error (.inside .trailingComma ('}' :: rest))
      | rest => .error (.inside .keyNotString rest)
    else .error (.inside .objectCommaExpected (c :: rest))

def readColon (text : List Char) : Except Fault (List Char) :=
  match skipBlanks text with
  | [] => .error (.inside .endInObject [])
  | ':' :: rest => .ok rest
  | rest => .error (.inside .colonExpected rest)

def readItems {α : Type} (item : List Char → Except Fault (α × List Char)) (done : List α) :
    (limit : Nat) → List Char → Except Fault (List α × List Char)
  | 0, text => .error (.inside .endInList text)
  | limit + 1, text => do
    let (more, text) ← nextItem done.isEmpty text
    if more then
      let (value, text) ← item text
      readItems item (value :: done) limit text
    else pure (done.reverse, text.drop 1)

def readMembers {α : Type} (item : List Char → Except Fault (α × List Char))
    (done : List (String × α)) :
    (limit : Nat) → List Char → Except Fault (List (String × α) × List Char)
  | 0, text => .error (.inside .endInObject text)
  | limit + 1, text => do
    let (more, text) ← nextKey done.isEmpty text
    if more then
      let (key, text) ← readString [] text
      let text ← readColon text
      let (value, text) ← item text
      readMembers item ((key, value) :: done) limit text
    else pure (done.reverse, text.drop 1)

/-- Reads a value in which `room` arrays and objects may be nested, each with at most `limit`
parts. -/
def readValue (limit : Nat) : (room : Nat) → List Char → Except Fault (Value × List Char)
  | room, text =>
    match skipBlanks text with
    | '[' :: rest =>
      match room with
      | 0 => .error (.inside .tooDeep ('[' :: rest))
      | room + 1 => do
        let (items, rest) ← readItems (readValue limit room) [] limit rest
        pure (.array items, rest)
    | '{' :: rest =>
      match room with
      | 0 => .error (.inside .tooDeep ('{' :: rest))
      | room + 1 => do
        let (members, rest) ← readMembers (readValue limit room) [] limit rest
        pure (.object (Assoc.ofList members), rest)
    | rest => readScalar rest

def maximalDepth : Nat := 127

def itemLimit (text : List Char) : Nat :=
  text.length + 1

def readEnd (text : List Char) : Except Fault Unit :=
  match skipBlanks text with
  | [] => .ok ()
  | rest => .error (.inside .trailingCharacters rest)

def readText {α : Type} (read : (limit : Nat) → List Char → Except Fault (α × List Char))
    (text : String) : Except ReadError α :=
  let characters := text.toList
  let result := do
    let (value, rest) ← read (itemLimit characters) characters
    readEnd rest
    pure value
  result.mapError (·.locate characters)

def Value.ofText (text : String) : Except ReadError Value :=
  readText (fun limit => readValue limit maximalDepth) text

end ContentTypes.Json
