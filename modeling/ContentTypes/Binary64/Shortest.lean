import ContentTypes.Binary64

/-!
# Shortest decimals

The decimal with the fewest digits that is read as a given number: of the decimals with so many
digits that lie between the midpoints to the number's neighbours, the nearest one. Where two are equally
near, the form in which the number is written says which one is taken.
-/

namespace ContentTypes.Binary64

inductive Tie where
  | larger
  | even

structure Decimal where
  digits : Nat
  exponent : Int
  deriving DecidableEq, Repr

/-- The reals that are read as m · 2^e, as quotients by one denominator. The ends belong to them if
`m` is even. -/
structure Interval where
  low : Nat
  value : Nat
  high : Nat
  denominator : Nat
  closed : Bool

/-- Below a power of two the gap to the next number is half as wide as above. -/
def interval (m : Nat) (e : Int) : Interval :=
  let narrow := m = leadingBit ∧ -1074 < e
  let low := if narrow then 4 * m - 1 else 4 * m - 2
  let (scale, denominator) := if 0 ≤ e then (1 <<< e.toNat, 4) else (1, 4 <<< (-e).toNat)
  ⟨low * scale, 4 * m * scale, (4 * m + 2) * scale, denominator, m % 2 = 0⟩

/-- Whether `digits · 10^exponent` lies in the interval, and its distance from the value there, in
units that depend on the exponent alone. -/
def Interval.distance? (i : Interval) (digits : Nat) (exponent : Int) : Option Nat :=
  let (up, down) := if 0 ≤ exponent then (powerOfTen exponent.toNat, 1)
    else (1, powerOfTen (-exponent).toNat)
  let point := digits * up * i.denominator
  let (low, high, value) := (i.low * down, i.high * down, i.value * down)
  let inside := if i.closed then low ≤ point ∧ point ≤ high else low < point ∧ point < high
  if inside then some (if point ≤ value then value - point else point - value) else none

def Interval.onGrid? (i : Interval) (tie : Tie) (exponent : Int) : Option Decimal :=
  let below :=
    if 0 ≤ exponent then i.value / (i.denominator * powerOfTen exponent.toNat)
    else i.value * powerOfTen (-exponent).toNat / i.denominator
  match i.distance? below exponent, i.distance? (below + 1) exponent with
  | some near, some far =>
    let tied := match tie with
      | .larger => below + 1
      | .even => below + below % 2
    some ⟨if near < far then below else if far < near then below + 1 else tied, exponent⟩
  | some _, none => some ⟨below, exponent⟩
  | none, some _ => some ⟨below + 1, exponent⟩
  | none, none => none

def leadingExponent (num den : Nat) : Int :=
  if den ≤ num then ((Nat.toDigits 10 (num / den)).length : Int) - 1
  else -((Nat.toDigits 10 ((den - 1) / num)).length : Int)

/-- Drops the zeros at the end of the digits. There are at most `fuel` of them. -/
def Decimal.trim (d : Decimal) : (fuel : Nat) → Decimal
  | 0 => d
  | fuel + 1 =>
    if d.digits ≠ 0 ∧ d.digits % 10 = 0 then
      Decimal.trim ⟨d.digits / 10, d.exponent + 1⟩ fuel
    else d

/-- The shortest decimal for the size of ±m · 2^e, where `m` is positive. Seventeen digits always
suffice. -/
def shortest (tie : Tie) (m : Nat) (e : Int) : Decimal :=
  let i := interval m e
  let leading := leadingExponent i.value i.denominator
  let grids := (List.range 18).map fun (count : Nat) => leading - count
  ((grids.findSome? (i.onGrid? tie)).getD ⟨m, e⟩).trim 20

end ContentTypes.Binary64
