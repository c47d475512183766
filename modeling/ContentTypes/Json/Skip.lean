import ContentTypes.Json.Reader

/-!
# Values that are passed over

The value of a member that nobody asked for is read without being built. It may be nested to any
depth, its numbers may have any size, and its escapes need not make up characters.
-/

namespace ContentTypes.Json

def skipString : List Char → Except Fault (List Char)
  | [] => .error (.before .endInString [])
  | '"' :: rest => .ok rest
  | '\\' :: 'u' :: text =>
    match text with
    | a :: b :: c :: d :: rest =>
      if (hexValue4? a b c d).isSome then skipString rest else .error (hexFault text)
    | _ => .error (hexFault text)
  | '\\' :: c :: rest =>
    if (shortEscape? c).isSome then skipString rest
    else .error (.inside .invalidEscape (c :: rest))
  | ['\\'] => .error (.before .endInString [])
  | c :: rest =>
    if c < ' ' then .error (.before .controlCharacter (c :: rest)) else skipString rest

def skipScalar (text : List Char) : Except Fault (List Char) :=
  match text with
  | [] => .error (.inside .endInValue [])
  | 'n' :: rest => readWord ['u', 'l', 'l'] rest
  | 't' :: rest => readWord ['r', 'u', 'e'] rest
  | 'f' :: rest => readWord ['a', 'l', 's', 'e'] rest
  | '"' :: rest => skipString rest
  | c :: _ =>
    if c = '-' ∨ c.isDigit then (scanNumber .invalidNumber text).map Prod.snd
    else .error (.inside .valueExpected text)

inductive Opened where
  | list
  | object
  deriving DecidableEq, Repr

namespace Opened

def closer : Opened → Char
  | list => ']'
  | object => '}'

def endError : Opened → Error
  | list => .endInList
  | object => .endInObject

def commaError : Opened → Error
  | list => .listCommaExpected
  | object => .objectCommaExpected

def skipLabel (opened : Opened) (text : List Char) : Except Fault (List Char) :=
  match opened with
  | list => .ok text
  | object =>
    match skipBlanks text with
    | [] => .error (.inside .endInObject [])
    | '"' :: rest => do readColon (← skipString rest)
    | rest => .error (.inside .keyNotString rest)

end Opened

inductive Ahead where
  | value
  | afterOpening
  | afterValue

/-- Passes over the rest of a value in which `opened` are open, the innermost first. At most `steps`
steps are made, of which there are three for a character at most. -/
def skipFrom : (steps : Nat) → Ahead → (opened : List Opened) → List Char →
    Except Fault (List Char)
  | 0, _, _, text => .error (.inside .endInValue text)
  | steps + 1, .value, opened, text =>
    match skipBlanks text with
    | '[' :: rest => skipFrom steps .afterOpening (.list :: opened) rest
    | '{' :: rest => skipFrom steps .afterOpening (.object :: opened) rest
    | rest => do skipFrom steps .afterValue opened (← skipScalar rest)
  | _ + 1, _, [], text => .ok text
  | steps + 1, .afterOpening, inner :: opened, text =>
    match skipBlanks text with
    | [] => .error (.inside inner.endError [])
    | c :: rest =>
      if c = inner.closer then skipFrom steps .afterValue opened rest
      else do skipFrom steps .value (inner :: opened) (← inner.skipLabel (c :: rest))
  | steps + 1, .afterValue, inner :: opened, text =>
    match skipBlanks text with
    | [] => .error (.inside inner.endError [])
    | c :: rest =>
      if c = inner.closer then skipFrom steps .afterValue opened rest
      else if c = ',' then do skipFrom steps .value (inner :: opened) (← inner.skipLabel rest)
      else .error (.inside inner.commaError (c :: rest))

def skipValue (limit : Nat) (text : List Char) : Except Fault (List Char) :=
  skipFrom (3 * limit) .value [] text

end ContentTypes.Json
