import ContentTypes.Text.CodeSet

/-!
# Literals and lines

In single quotes a backslash stands before each backslash and each quote of a text, and all else is as it
is. Reading such a literal undoes this, whatever follows it: `SingleQuoted.scan_escape`. In double quotes
a message shows a text that may hold anything: the common controls have short escapes, and every other
character that is not printable is given by its number.

`splitLines` cuts a text after each line end and keeps the ends, so that the lines make up the text
again: `flatten_splitLines`. A line ends with a line feed, with a carriage return, or with both in
this order.
-/

namespace ContentTypes.Text

namespace SingleQuoted

def escape : List Char → List Char
  | [] => []
  | c :: rest =>
    if c = '\\' ∨ c = '\'' then '\\' :: c :: escape rest else c :: escape rest

def encode (text : String) : String :=
  String.ofList ('\'' :: escape text.toList ++ ['\''])

/-- Reads the part of a literal after its opening quote. Gives the text and what follows the closing
quote, or nothing if there is none. -/
def scan : List Char → Option (List Char × List Char)
  | [] => none
  | '\'' :: rest => some ([], rest)
  | '\\' :: c :: rest => (scan rest).map fun (text, after) => (c :: text, after)
  | c :: rest => (scan rest).map fun (text, after) => (c :: text, after)

theorem scan_escape (text rest : List Char) :
    scan (escape text ++ '\'' :: rest) = some (text, rest) := by
  induction text with
  | nil => rfl
  | cons c text ih =>
    by_cases h : c = '\\' ∨ c = '\''
    · rcases h with rfl | rfl <;> simp [escape, scan, ih]
    · obtain ⟨hb, hq⟩ := not_or.1 h
      simp only [escape, h, if_false, List.cons_append]
      rw [scan]
      · simp [ih]
      · exact hq
      · intro d r hd; exact absurd hd hb

end SingleQuoted

def shownChar (c : Char) : List Char :=
  if c = '\t' then ['\\', 't']
  else if c = '\r' then ['\\', 'r']
  else if c = '\n' then ['\\', 'n']
  else if c = '\\' then ['\\', '\\']
  else if c = '"' then ['\\', '"']
  else if c.toNat = 0 then ['\\', '0']
  else if isPrintable c then [c]
  else ['\\', 'u', '{'] ++ Nat.toDigits 16 c.toNat ++ ['}']

def doubleQuoted (text : String) : String :=
  String.ofList (['"'] ++ text.toList.flatMap shownChar ++ ['"'])

def joinLines (lines : List String) : String :=
  String.join (lines.map (· ++ "\n"))

def consFirst (c : Char) : List (List Char) → List (List Char)
  | [] => [[c]]
  | line :: lines => (c :: line) :: lines

def splitLines : List Char → List (List Char)
  | [] => []
  | '\r' :: '\n' :: rest => ['\r', '\n'] :: splitLines rest
  | c :: rest => if c = '\n' ∨ c = '\r' then [c] :: splitLines rest else consFirst c (splitLines rest)

theorem flatten_consFirst (c : Char) (lines : List (List Char)) :
    (consFirst c lines).flatten = c :: lines.flatten := by
  cases lines <;> rfl

theorem flatten_splitLines (text : List Char) : (splitLines text).flatten = text := by
  fun_induction splitLines text with
  | case1 => rfl
  | case2 rest ih => simp [ih]
  | case3 c rest hcr h ih => simp [ih]
  | case4 c rest hcr h ih => rw [flatten_consFirst, ih]

end ContentTypes.Text
