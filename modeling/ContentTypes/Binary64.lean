/-!
# Floating-point numbers of 64 bits

A finite number is ±m · 2^e with an integer `m` below 2^53 and an exponent from -1074 to 971. Every
operation computes the exact quotient of two natural numbers and rounds once, to the nearest such
number, a tie to the even one.
-/

namespace ContentTypes

inductive Binary64 where
  | finite (negative : Bool) (significand : Nat) (exponent : Int)
  | infinite (negative : Bool)
  | nan
  deriving DecidableEq, Repr

namespace Binary64

def leadingBit : Nat := 1 <<< 52

def powerOfTen (exponent : Nat) : Nat :=
  Nat.pow 10 exponent

def zero : Binary64 := finite false 0 (-1074)

def isZero : Binary64 → Bool
  | finite _ m _ => m = 0
  | infinite _ | nan => false

def isInfinite : Binary64 → Bool
  | infinite _ => true
  | finite .. | nan => false

def negate : Binary64 → Binary64
  | finite negative m e => finite (!negative) m e
  | infinite negative => infinite (!negative)
  | nan => nan

/-- The integer nearest to `num / den`, an even one if two are equally near. -/
def roundDiv (num den : Nat) : Nat :=
  let quotient := num / den
  let twice := 2 * (num % den)
  if twice < den then quotient
  else if den < twice then quotient + 1
  else quotient + quotient % 2

def roundScaled (num den : Nat) (e : Int) : Nat :=
  if 0 ≤ e then roundDiv num (den <<< e.toNat) else roundDiv (num <<< (-e).toNat) den

/-- The exponent of `num / den`: the whole part of the quotient by its power of two has 53 bits,
unless the exponent is the least one. -/
def exponentOf (num den : Nat) : Int :=
  let guess : Int := num.log2 - den.log2 - 52
  let fits := if 0 ≤ guess then (leadingBit * den) <<< guess.toNat ≤ num
    else leadingBit * den ≤ num <<< (-guess).toNat
  max (if fits then guess else guess - 1) (-1074)

def ofRatio (negative : Bool) (num den : Nat) : Binary64 :=
  if num = 0 then finite negative 0 (-1074)
  else
    let e := exponentOf num den
    let m := roundScaled num den e
    let (m, e) := if m = 2 * leadingBit then (leadingBit, e + 1) else (m, e)
    if 971 < e then infinite negative else finite negative m e

def ofNat (n : Nat) : Binary64 :=
  ofRatio false n 1

/-- The number nearest to `digits · 10^exponent`. Sizes far outside of the range are told by the
place of the first digit. -/
def ofDecimal (negative : Bool) (digits : Nat) (exponent : Int) : Binary64 :=
  let leading := exponent + (Nat.toDigits 10 digits).length
  if digits = 0 ∨ leading < -400 then finite negative 0 (-1074)
  else if 400 < leading then infinite negative
  else if 0 ≤ exponent then ofRatio negative (digits * powerOfTen exponent.toNat) 1
  else ofRatio negative digits (powerOfTen (-exponent).toNat)

def ratio (m : Nat) (e : Int) : Nat × Nat :=
  if 0 ≤ e then (m <<< e.toNat, 1) else (m, 1 <<< (-e).toNat)

def scaleUp (x factor : Binary64) : Binary64 :=
  match x, factor with
  | finite negative m e, finite _ m' e' =>
    let (num, den) := ratio m e
    let (num', den') := ratio m' e'
    ofRatio negative (num * num') (den * den')
  | _, _ => x

def scaleDown (x divisor : Binary64) : Binary64 :=
  match x, divisor with
  | finite negative m e, finite _ m' e' =>
    let (num, den) := ratio m e
    let (num', den') := ratio m' e'
    ofRatio negative (num * den') (den * num')
  | _, _ => x

end Binary64

end ContentTypes
