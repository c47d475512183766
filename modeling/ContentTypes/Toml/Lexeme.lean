import ContentTypes.Numeral
import ContentTypes.Toml.Value

/-!
# The parts of TOML texts

Each function reads one part of a text from its beginning and gives what follows it, or nothing if
the text does not begin with such a part.
-/

namespace ContentTypes.Toml

def isBlank (c : Char) : Bool :=
  c = ' ' || c = '\t'

def skipBlanks (text : List Char) : List Char :=
  text.dropWhile isBlank

def newline? : List Char → Option (List Char)
  | '\n' :: rest => some rest
  | '\r' :: '\n' :: rest => some rest
  | _ => none

def isCommentChar (c : Char) : Bool :=
  c = '\t' || (' ' ≤ c && c ≠ '\x7f')

def lineEnd? (text : List Char) : Option (List Char) :=
  let rest := match skipBlanks text with
    | '#' :: rest => rest.dropWhile isCommentChar
    | rest => rest
  match rest with
  | [] => some []
  | rest => newline? rest

def skipFiller (inComment : Bool) : List Char → List Char
  | [] => []
  | '\r' :: '\n' :: rest => skipFiller false rest
  | c :: rest =>
    if inComment && isCommentChar c then skipFiller true rest
    else if c = '\n' || isBlank c then skipFiller false rest
    else if c = '#' then skipFiller true rest
    else c :: rest

def hexDigit? (c : Char) : Option Nat :=
  if c.isDigit then some (c.toNat - '0'.toNat)
  else if 'a' ≤ c ∧ c ≤ 'f' then some (c.toNat - 'a'.toNat + 10)
  else if 'A' ≤ c ∧ c ≤ 'F' then some (c.toNat - 'A'.toNat + 10)
  else none

def hexNumber? (digits : List Char) : Option Nat :=
  digits.foldlM (fun n c => (hexDigit? c).map (n * 16 + ·)) 0

def hexChar? (digits : List Char) : Option Char :=
  match hexNumber? digits with
  | some code => if code.isValidChar then some (Char.ofNat code) else none
  | none => none

def shortEscape? (c : Char) : Option Char :=
  match c with
  | 'b' => some '\x08'
  | 't' => some '\t'
  | 'n' => some '\n'
  | 'f' => some '\x0c'
  | 'r' => some '\r'
  | '"' => some '"'
  | '\\' => some '\\'
  | _ => none

def isBasicChar (c : Char) : Bool :=
  c = '\t' || (' ' ≤ c && c ≠ '"' && c ≠ '\\' && c ≠ '\x7f')

def isLiteralChar (c : Char) : Bool :=
  c = '\t' || (' ' ≤ c && c ≠ '\'' && c ≠ '\x7f')

def basicString? (done : List Char) : List Char → Option (String × List Char)
  | [] => none
  | '"' :: rest => some (String.ofList done.reverse, rest)
  | '\\' :: 'u' :: a :: b :: c :: d :: rest =>
    match hexChar? [a, b, c, d] with
    | some x => basicString? (x :: done) rest
    | none => none
  | '\\' :: 'U' :: a :: b :: c :: d :: e :: f :: g :: h :: rest =>
    match hexChar? [a, b, c, d, e, f, g, h] with
    | some x => basicString? (x :: done) rest
    | none => none
  | '\\' :: c :: rest =>
    match shortEscape? c with
    | some x => basicString? (x :: done) rest
    | none => none
  | c :: rest => if isBasicChar c then basicString? (c :: done) rest else none

def literalString? (text : List Char) : Option (String × List Char) :=
  match text.dropWhile isLiteralChar with
  | '\'' :: rest => some (String.ofList (text.takeWhile isLiteralChar), rest)
  | _ => none

/-- Up to two quotes may stand before the closing three. -/
def closingQuotes (quote : Char) : List Char → List Char × List Char
  | a :: b :: rest =>
    if a = quote ∧ b = quote then ([a, b], rest)
    else if a = quote then ([a], b :: rest)
    else ([], a :: b :: rest)
  | [a] => if a = quote then ([a], []) else ([], [a])
  | [] => ([], [])

def blankToLineEnd (text : List Char) : Bool :=
  (newline? (skipBlanks text)).isSome

/-- Reads a basic string of several lines after its quotes. In a gap, which a backslash at the end of
a line opens, blanks and line ends count for nothing. -/
def multilineBasic? (gap : Bool) (done : List Char) : List Char → Option (String × List Char)
  | [] => none
  | '"' :: '"' :: '"' :: rest =>
    let (quotes, rest) := closingQuotes '"' rest
    some (String.ofList (done.reverse ++ quotes), rest)
  | '"' :: rest => multilineBasic? false ('"' :: done) rest
  | '\\' :: 'u' :: a :: b :: c :: d :: rest =>
    match hexChar? [a, b, c, d] with
    | some x => multilineBasic? false (x :: done) rest
    | none => none
  | '\\' :: 'U' :: a :: b :: c :: d :: e :: f :: g :: h :: rest =>
    match hexChar? [a, b, c, d, e, f, g, h] with
    | some x => multilineBasic? false (x :: done) rest
    | none => none
  | '\\' :: c :: rest =>
    match shortEscape? c with
    | some x => multilineBasic? false (x :: done) rest
    | none => if blankToLineEnd (c :: rest) then multilineBasic? true done (c :: rest) else none
  | '\r' :: '\n' :: rest => multilineBasic? gap (if gap then done else '\n' :: done) rest
  | c :: rest =>
    if c = '\n' then multilineBasic? gap (if gap then done else '\n' :: done) rest
    else if gap && isBlank c then multilineBasic? true done rest
    else if isBasicChar c then multilineBasic? false (c :: done) rest
    else none

def multilineLiteral? (done : List Char) : List Char → Option (String × List Char)
  | [] => none
  | '\'' :: '\'' :: '\'' :: rest =>
    let (quotes, rest) := closingQuotes '\'' rest
    some (String.ofList (done.reverse ++ quotes), rest)
  | '\'' :: rest => multilineLiteral? ('\'' :: done) rest
  | '\r' :: '\n' :: rest => multilineLiteral? ('\n' :: done) rest
  | c :: rest =>
    if c = '\n' || isLiteralChar c then multilineLiteral? (c :: done) rest else none

def dropFirstNewline (text : List Char) : List Char :=
  (newline? text).getD text

def string? : List Char → Option (String × List Char)
  | '"' :: '"' :: '"' :: rest => multilineBasic? false [] (dropFirstNewline rest)
  | '"' :: rest => basicString? [] rest
  | '\'' :: '\'' :: '\'' :: rest => multilineLiteral? [] (dropFirstNewline rest)
  | '\'' :: rest => literalString? rest
  | _ => none

def isBareKeyChar (c : Char) : Bool :=
  c.isAlphanum || c = '-' || c = '_'

def simpleKey? : List Char → Option (String × List Char)
  | '"' :: rest => basicString? [] rest
  | '\'' :: rest => literalString? rest
  | text =>
    match text.takeWhile isBareKeyChar with
    | [] => none
    | key => some (String.ofList key, text.dropWhile isBareKeyChar)

def keyParts? : (limit : Nat) → List Char → Option (List String × List Char)
  | 0, _ => none
  | limit + 1, text => do
    let (key, rest) ← simpleKey? (skipBlanks text)
    match skipBlanks rest with
    | '.' :: rest => do
      let (keys, rest) ← keyParts? limit rest
      pure (key :: keys, rest)
    | rest => pure ([key], rest)

def maximalKeyLength : Nat := 80

def key? (text : List Char) : Option (List String × List Char) :=
  keyParts? maximalKeyLength text

def moreDigits? (isDigit : Char → Bool) (done : List Char) :
    List Char → Option (List Char × List Char)
  | [] => some (done.reverse, [])
  | ['_'] => none
  | '_' :: c :: rest => if isDigit c then moreDigits? isDigit (c :: done) rest else none
  | c :: rest =>
    if isDigit c then moreDigits? isDigit (c :: done) rest else some (done.reverse, c :: rest)

def digits? (isDigit : Char → Bool) : List Char → Option (List Char × List Char)
  | [] => none
  | c :: rest => if isDigit c then moreDigits? isDigit [c] rest else none

def sign : List Char → Bool × List Char
  | '+' :: rest => (false, rest)
  | '-' :: rest => (true, rest)
  | text => (false, text)

def decimalDigits? : List Char → Option (List Char × List Char)
  | '0' :: rest => some (['0'], rest)
  | text => digits? Char.isDigit text

def numberOf (digits : List Char) : Nat :=
  digits.foldl (fun n c => n * 10 + (c.toNat - '0'.toNat)) 0

def exponent? : List Char → Option (Int × List Char)
  | c :: rest =>
    if c = 'e' ∨ c = 'E' then do
      let (negative, rest) := sign rest
      let (digits, rest) ← digits? Char.isDigit rest
      let size : Int := numberOf digits
      pure (if negative then -size else size, rest)
    else none
  | [] => none

/-- Reads a number with a fraction or an exponent. One above all finite numbers is refused, one below
them is not. -/
def float? (text : List Char) : Option (Binary64 × List Char) := do
  let (negative, rest) := sign text
  let (whole, rest) ← decimalDigits? rest
  let (fraction, exponent, rest) ← match rest with
    | '.' :: rest => do
      let (fraction, rest) ← digits? Char.isDigit rest
      match exponent? rest with
      | some (exponent, rest) => pure (fraction, exponent, rest)
      | none => pure (fraction, 0, rest)
    | rest => do
      let (exponent, rest) ← exponent? rest
      pure ([], exponent, rest)
  let value := Binary64.ofDecimal negative (numberOf (whole ++ fraction)) (exponent - fraction.length)
  if value = .infinite false then none else pure (value, rest)

def specialFloat? (text : List Char) : Option (Binary64 × List Char) :=
  let (negative, rest) := sign text
  match rest with
  | 'i' :: 'n' :: 'f' :: rest => some (.infinite negative, rest)
  | 'n' :: 'a' :: 'n' :: rest => some (.nan, rest)
  | _ => none

def radixNumber? (base : Nat) (digits : List Char) : Option Int :=
  let n := digits.foldl (fun n c => n * base + (hexDigit? c).getD 0) 0
  Integer64.ofSize? false n

def isHexDigit (c : Char) : Bool :=
  (hexDigit? c).isSome

def isOctalDigit (c : Char) : Bool :=
  '0' ≤ c && c ≤ '7'

def isBinaryDigit (c : Char) : Bool :=
  c = '0' || c = '1'

def integer? (text : List Char) : Option (Int × List Char) :=
  match text with
  | '0' :: 'x' :: rest => do
    let (digits, rest) ← digits? isHexDigit rest
    pure (← radixNumber? 16 digits, rest)
  | '0' :: 'o' :: rest => do
    let (digits, rest) ← digits? isOctalDigit rest
    pure (← radixNumber? 8 digits, rest)
  | '0' :: 'b' :: rest => do
    let (digits, rest) ← digits? isBinaryDigit rest
    pure (← radixNumber? 2 digits, rest)
  | _ => do
    let (negative, rest) := sign text
    let (digits, rest) ← decimalDigits? rest
    pure (← Integer64.ofSize? negative (numberOf digits), rest)

def twoDigits? (low high : Nat) : List Char → Option (Nat × List Char)
  | a :: b :: rest =>
    let n := numberOf [a, b]
    if a.isDigit && b.isDigit && low ≤ n && n ≤ high then some (n, rest) else none
  | _ => none

def daysIn (year month : Nat) : Nat :=
  if month = 2 then
    if year % 4 = 0 ∧ (year % 100 ≠ 0 ∨ year % 400 = 0) then 29 else 28
  else if month = 4 ∨ month = 6 ∨ month = 9 ∨ month = 11 then 30
  else 31

def expect? (c : Char) : List Char → Option (List Char)
  | d :: rest => if d = c then some rest else none
  | [] => none

def date? : List Char → Option (Date × List Char)
  | a :: b :: c :: d :: rest => do
    if !(a.isDigit && b.isDigit && c.isDigit && d.isDigit) then none
    let year := numberOf [a, b, c, d]
    let (month, rest) ← twoDigits? 1 12 (← expect? '-' rest)
    let (day, rest) ← twoDigits? 1 (daysIn year month) (← expect? '-' rest)
    pure (⟨year, month, day⟩, rest)
  | _ => none

def time? (text : List Char) : Option (Time × List Char) := do
  let (hour, rest) ← twoDigits? 0 23 text
  let (minute, rest) ← twoDigits? 0 59 (← expect? ':' rest)
  let (second, rest) ← twoDigits? 0 60 (← expect? ':' rest)
  let fraction := match rest with
    | '.' :: rest => rest.takeWhile Char.isDigit
    | _ => []
  let counted := fraction.take 9
  let nanosecond := numberOf counted * Binary64.powerOfTen (9 - counted.length)
  let rest := if fraction = [] then rest else rest.drop (fraction.length + 1)
  pure (⟨hour, minute, second, nanosecond⟩, rest)

def timeOffset? : List Char → Option (TimeOffset × List Char)
  | c :: rest =>
    if c = 'Z' ∨ c = 'z' then some (.universal, rest)
    else if c = '+' ∨ c = '-' then do
      let (hours, rest) ← twoDigits? 0 23 rest
      let (minutes, rest) ← twoDigits? 0 59 (← expect? ':' rest)
      let size : Int := (hours * 60 + minutes : Nat)
      pure (.minutes (if c = '-' then -size else size), rest)
    else none
  | [] => none

def moment? (text : List Char) : Option (Moment × List Char) :=
  match date? text with
  | some (date, rest) =>
    let timed := match rest with
      | c :: rest => if c = 'T' ∨ c = 't' ∨ c = ' ' then time? rest else none
      | [] => none
    match timed with
    | some (time, rest) =>
      match timeOffset? rest with
      | some (offset, rest) => some (⟨some date, some time, some offset⟩, rest)
      | none => some (⟨some date, some time, none⟩, rest)
    | none => some (⟨some date, none, none⟩, rest)
  | none => (time? text).map fun (time, rest) => (⟨none, some time, none⟩, rest)

end ContentTypes.Toml
