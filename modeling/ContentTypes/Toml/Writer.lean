/-!
# Writing TOML

A string is written in the first of these forms in which it needs no escapes for quotes, backslashes
or controls: between double quotes, between single quotes, between three double quotes, between
three single quotes. If none will do, it is written between double quotes with escapes.
-/

namespace ContentTypes.Toml

def isControl (c : Char) : Bool :=
  (c < ' ' && c ≠ '\t' && c ≠ '\n') || c = '\x7f'

def hasTriple (mark : Char) (run : Nat) : List Char → Bool
  | [] => false
  | c :: rest =>
    if c = mark then run = 2 || hasTriple mark (run + 1) rest else hasTriple mark 0 rest

inductive StringForm where
  | basic
  | literal
  | multilineBasic
  | multilineLiteral
  deriving DecidableEq, Repr

def StringForm.choose (text : List Char) : StringForm :=
  let plain := !text.any isControl
  let oneLine := !text.contains '\n'
  let noBackslash := !text.contains '\\'
  if plain && oneLine && noBackslash && !text.contains '"' then basic
  else if plain && oneLine && !text.contains '\'' then literal
  else if plain && noBackslash && !hasTriple '"' 0 text then multilineBasic
  else if plain && !hasTriple '\'' 0 text then multilineLiteral
  else if oneLine then basic
  else multilineBasic

def upperHexDigit (n : Nat) : Char :=
  (Nat.digitChar n).toUpper

def escapedChar (c : Char) : List Char :=
  if c = '\x08' then ['\\', 'b']
  else if c = '\t' then ['\\', 't']
  else if c = '\x0c' then ['\\', 'f']
  else if c = '\r' then ['\\', 'r']
  else if c = '\\' then ['\\', '\\']
  else if isControl c then
    ['\\', 'u', '0', '0', upperHexDigit (c.toNat / 16), upperHexDigit (c.toNat % 16)]
  else [c]

/-- The characters between double quotes. Where several lines are allowed, only a third quote in a
row is escaped; `run` counts the quotes so far. -/
def basicBody (multiline : Bool) (run : Nat) : List Char → List Char
  | [] => []
  | c :: rest =>
    if c = '"' then
      if multiline && run < 2 then '"' :: basicBody multiline (run + 1) rest
      else '\\' :: '"' :: basicBody multiline 0 rest
    else if c = '\n' then
      (if multiline then ['\n'] else ['\\', 'n']) ++ basicBody multiline 0 rest
    else escapedChar c ++ basicBody multiline 0 rest

/-- A line feed goes after the opening three quotes if the text has more than one line. -/
def firstNewline (text : List Char) : List Char :=
  if text.contains '\n' then ['\n'] else []

def StringForm.write (text : List Char) : StringForm → List Char
  | basic => ['"'] ++ basicBody false 0 text ++ ['"']
  | literal => ['\''] ++ text ++ ['\'']
  | multilineBasic =>
    ['"', '"', '"'] ++ firstNewline text ++ basicBody true 0 text ++ ['"', '"', '"']
  | multilineLiteral =>
    ['\'', '\'', '\''] ++ firstNewline text ++ text ++ ['\'', '\'', '\'']

def writeString (text : String) : String :=
  String.ofList ((StringForm.choose text.toList).write text.toList)

def writeStrings : List String → String
  | [] => "[]"
  | [text] => "[" ++ writeString text ++ "]"
  | texts => "[\n" ++ String.join (texts.map fun text => "    " ++ writeString text ++ ",\n") ++ "]"

def writeBoolean (value : Bool) : String :=
  if value then "true" else "false"

end ContentTypes.Toml
