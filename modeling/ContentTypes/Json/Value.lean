import ContentTypes.Binary64.Text

/-!
# JSON values

A number is an integer if it is written as one and fits into 64 bits with or without a sign, and a
floating-point number otherwise. The members of an object have different names and keep their order.

A value is printed on several lines: each item and each member has its own, two more spaces in than what
holds it. Empty arrays and objects stay on one line.
-/

namespace ContentTypes.Json

inductive Number where
  | integer (value : Int)
  | float (value : Binary64)
  deriving DecidableEq, Repr

inductive Value where
  | null
  | boolean (value : Bool)
  | number (value : Number)
  | string (text : String)
  | array (items : List Value)
  | object (members : List (String × Value))
  deriving Repr

namespace Value

def member? (value : Value) (name : String) : Option Value :=
  match value with
  | object members => members.lookup name
  | _ => none

end Value

def printedChar (c : Char) : List Char :=
  if c = '"' then ['\\', '"']
  else if c = '\\' then ['\\', '\\']
  else if c = '\n' then ['\\', 'n']
  else if c = '\r' then ['\\', 'r']
  else if c = '\t' then ['\\', 't']
  else if c.toNat = 8 then ['\\', 'b']
  else if c.toNat = 12 then ['\\', 'f']
  else if c.toNat < 32 then
    ['\\', 'u', '0', '0', Nat.digitChar (c.toNat / 16), Nat.digitChar (c.toNat % 16)]
  else [c]

def printedString (text : String) : String :=
  "\"" ++ String.ofList (text.toList.flatMap printedChar) ++ "\""

def Number.printed : Number → String
  | integer value => toString value
  | float value => value.compact

def printedLines (indent : String) (texts : List String) : String :=
  ",\n".intercalate (texts.map (indent ++ ·))

def bracketed (first last indent : String) (texts : List String) : String :=
  if texts.isEmpty then first ++ last
  else first ++ "\n" ++ printedLines (indent ++ "  ") texts ++ "\n" ++ indent ++ last

namespace Value

mutual
def printIn (indent : String) : Value → String
  | null => "null"
  | boolean value => toString value
  | number value => value.printed
  | string text => printedString text
  | array items => bracketed "[" "]" indent (printItems (indent ++ "  ") items)
  | object members => bracketed "\x7b" "\x7d" indent (printMembers (indent ++ "  ") members)
def printItems (indent : String) : List Value → List String
  | [] => []
  | item :: items => printIn indent item :: printItems indent items
def printMembers (indent : String) : List (String × Value) → List String
  | [] => []
  | (name, value) :: members =>
    (printedString name ++ ": " ++ printIn indent value) :: printMembers indent members
end

def print (value : Value) : String :=
  value.printIn ""

end Value

end ContentTypes.Json
