import ContentTypes.Binary64

/-!
# Written numbers

An integer in a document or a variable has to fit into 64 bits. A floating-point number is a sign, then
digits with a point and an exponent, all of it optional but one digit at least; or one of the words for an
infinity and for no number, in any case of letters.
-/

namespace ContentTypes

namespace Integer64

/-- The least size that is too large for an integer without a sign. -/
def unsignedLimit : Nat := 0x10000000000000000

def signedLimit : Nat := 0x8000000000000000

def ofSize? (negative : Bool) (size : Nat) : Option Int :=
  if negative then if size ≤ signedLimit then some (-size) else none
  else if size < signedLimit then some size else none

end Integer64

namespace Binary64

def spanDigits (text : List Char) : List Char × List Char :=
  (text.takeWhile Char.isDigit, text.dropWhile Char.isDigit)

def numberOf (digits : List Char) : Nat :=
  digits.foldl (fun n c => n * 10 + (c.toNat - '0'.toNat)) 0

def splitSign : List Char → Bool × List Char
  | '+' :: rest => (false, rest)
  | '-' :: rest => (true, rest)
  | text => (false, text)

/-- The exponent that is the whole of a text; none is zero. -/
def exponentOf? : List Char → Option Int
  | [] => some 0
  | c :: rest =>
    let (negative, rest) := splitSign rest
    if (c = 'e' ∨ c = 'E') ∧ rest ≠ [] ∧ rest.all Char.isDigit then
      some (if negative then -(numberOf rest : Int) else numberOf rest)
    else none

def ofDigits? (negative : Bool) (text : List Char) : Option Binary64 := do
  let (whole, rest) := spanDigits text
  let (fraction, rest) := match rest with
    | '.' :: rest => spanDigits rest
    | rest => ([], rest)
  if whole = [] ∧ fraction = [] then none
  let exponent ← exponentOf? rest
  pure (ofDecimal negative (numberOf (whole ++ fraction)) (exponent - fraction.length))

def ofText? (text : String) : Option Binary64 :=
  let (negative, rest) := splitSign text.toList
  let word := String.ofList (rest.map Char.toLower)
  if word = "inf" ∨ word = "infinity" then some (infinite negative)
  else if word = "nan" then some nan
  else ofDigits? negative rest

end Binary64

end ContentTypes
