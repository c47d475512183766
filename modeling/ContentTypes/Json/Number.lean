import ContentTypes.Json.Error
import ContentTypes.Numeral

/-!
# JSON numbers

`NumberText` is a number as it is written, `scanNumber` reads one. Its value is made from the digits
that fit into 64 bits without a sign; each further digit before the point only shifts the others.
-/

namespace ContentTypes.Json

structure NumberText where
  negative : Bool
  whole : List Char
  fraction? : Option (List Char)
  exponent? : Option (Bool × List Char)
  deriving DecidableEq, Repr

def spanDigits (text : List Char) : List Char × List Char :=
  (text.takeWhile (·.isDigit), text.dropWhile (·.isDigit))

/-- One digit or more without a zero in front. `atEnd` is the error if the text ends here. -/
def scanWhole (atEnd : Error) (text : List Char) : Except Fault (List Char × List Char) :=
  match text with
  | [] => .error (.before atEnd [])
  | '0' :: rest =>
    match rest with
    | d :: _ => if d.isDigit then .error (.inside .invalidNumber rest) else .ok (['0'], rest)
    | [] => .ok (['0'], rest)
  | c :: _ => if c.isDigit then .ok (spanDigits text) else .error (.inside .invalidNumber text)

def scanDigits (atEnd : Error) (text : List Char) : Except Fault (List Char × List Char) :=
  match text with
  | [] => .error (.before atEnd [])
  | c :: _ => if c.isDigit then .ok (spanDigits text) else .error (.inside .invalidNumber text)

def scanFraction (atEnd : Error) (text : List Char) :
    Except Fault (Option (List Char) × List Char) :=
  match text with
  | '.' :: rest => do
    let (digits, rest) ← scanDigits atEnd rest
    pure (some digits, rest)
  | _ => .ok (none, text)

def scanExponent (atEnd : Error) (text : List Char) :
    Except Fault (Option (Bool × List Char) × List Char) :=
  match text with
  | c :: rest =>
    if c = 'e' ∨ c = 'E' then do
      let (negative, rest) := match rest with
        | '+' :: rest => (false, rest)
        | '-' :: rest => (true, rest)
        | _ => (false, rest)
      let (digits, rest) ← scanDigits atEnd rest
      pure (some (negative, digits), rest)
    else .ok (none, text)
  | [] => .ok (none, text)

def scanNumber (atEnd : Error) (text : List Char) : Except Fault (NumberText × List Char) := do
  let (negative, text) := match text with
    | '-' :: rest => (true, rest)
    | _ => (false, text)
  let (whole, text) ← scanWhole atEnd text
  let (fraction?, text) ← scanFraction atEnd text
  let (exponent?, text) ← scanExponent atEnd text
  pure (⟨negative, whole, fraction?, exponent?⟩, text)

def digitValue (c : Char) : Nat :=
  c.toNat - '0'.toNat

def appendDigits (bound : Nat) (start : Nat) : List Char → Nat × List Char
  | [] => (start, [])
  | c :: rest =>
    let next := start * 10 + digitValue c
    if next < bound then appendDigits bound next rest else (start, c :: rest)

def exponentLimit : Nat := 0x80000000

/-- The floating-point number near `significand · 10^exponent`: the significand is rounded, then
multiplied or divided by a rounded power of ten, and divided by 10^308 first if the power is smaller
than that. Nothing if it is too large. -/
def floatOfParts? (significand : Nat) (exponent : Int) : Option Binary64 :=
  let power (k : Nat) := Binary64.ofNat (Binary64.powerOfTen k)
  let start := Binary64.ofNat significand
  let size := exponent.natAbs
  if 0 ≤ exponent then
    if start.isZero then some start
    else if 308 < size then none
    else
      let product := start.scaleUp (power size)
      if product.isInfinite then none else some product
  else if size ≤ 308 then some (start.scaleDown (power size))
  else if size ≤ 616 then some ((start.scaleDown (power 308)).scaleDown (power (size - 308)))
  else some .zero

namespace NumberText

def withSign (number : NumberText) (size : Binary64) : Number :=
  .float (if number.negative then size.negate else size)

/-- A number without fraction and exponent whose digits all fit. A negative zero and a number below
the integers of 64 bits are floating-point numbers. -/
def wholeNumber (number : NumberText) (significand : Nat) : Number :=
  if number.negative then
    if significand = 0 ∨ Integer64.signedLimit < significand then number.withSign (.ofNat significand)
    else .integer (-significand)
  else .integer significand

def value (number : NumberText) (rest : List Char) : Except Fault Number :=
  let (whole, wholeLeft) := appendDigits Integer64.unsignedLimit 0 number.whole
  let fraction := number.fraction?.getD []
  let (significand, fractionLeft) := appendDigits Integer64.unsignedLimit whole fraction
  let shift : Int := wholeLeft.length - (fraction.length - fractionLeft.length : Nat)
  let ofParts (exponent : Int) : Except Fault Number :=
    match floatOfParts? significand exponent with
    | some size => .ok (number.withSign size)
    | none => .error (.before .numberOutOfRange rest)
  match number.exponent? with
  | none =>
    if number.fraction?.isNone && wholeLeft.isEmpty then .ok (number.wholeNumber significand)
    else ofParts shift
  | some (negative, digits) =>
    match appendDigits exponentLimit 0 digits with
    | (exponent, []) => ofParts (if negative then shift - exponent else shift + exponent)
    | (_, _ :: digitsLeft) =>
      if significand ≠ 0 ∧ ¬negative then
        .error (.before .numberOutOfRange (digitsLeft ++ rest))
      else .ok (number.withSign .zero)

end NumberText

def readNumber (text : List Char) : Except Fault (Number × List Char) := do
  let (number, rest) ← scanNumber .endInValue text
  let value ← number.value rest
  pure (value, rest)

end ContentTypes.Json
