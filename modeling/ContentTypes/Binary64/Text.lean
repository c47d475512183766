import ContentTypes.Binary64.Shortest

/-!
# Written floating-point numbers

All forms show the shortest decimal. `positional` never has an exponent, `pointed` is the same with a
decimal point always there, and `compact` turns to an exponent for very large and very small numbers.
Of two equally near decimals the first two forms take the larger and the third the even one.
-/

namespace ContentTypes.Binary64

def digitText (n : Nat) : String :=
  String.ofList (Nat.toDigits 10 n)

def zeros (count : Nat) : String :=
  String.ofList (List.replicate count '0')

/-- The decimal without an exponent, and whether it has a fraction. -/
def Decimal.positional (d : Decimal) : String × Bool :=
  let digits := Nat.toDigits 10 d.digits
  if 0 ≤ d.exponent then
    (String.ofList digits ++ zeros d.exponent.toNat, false)
  else
    let places := (-d.exponent).toNat
    if places < digits.length then
      let (whole, fraction) := digits.splitAt (digits.length - places)
      (String.ofList whole ++ "." ++ String.ofList fraction, true)
    else
      ("0." ++ zeros (places - digits.length) ++ String.ofList digits, true)

def Decimal.scientific (d : Decimal) : String :=
  let digits := Nat.toDigits 10 d.digits
  let exponent := d.exponent + (digits.length - 1 : Nat)
  let fraction := if digits.length ≤ 1 then "" else "." ++ String.ofList (digits.drop 1)
  let sign := if exponent < 0 then "-" else "+"
  String.ofList (digits.take 1) ++ fraction ++ "e" ++ sign ++ digitText exponent.natAbs

def signed (negative : Bool) (text : String) : String :=
  if negative then "-" ++ text else text

def Decimal.pointed (d : Decimal) : String :=
  let (text, fraction) := d.positional
  if fraction then text else text ++ ".0"

/-- Without an exponent if the first digit stands for 10^-5 up to 10^15. -/
def Decimal.compact (d : Decimal) : String :=
  let leading := d.exponent + ((Nat.toDigits 10 d.digits).length - 1 : Nat)
  if -5 ≤ leading ∧ leading < 16 then d.pointed else d.scientific

def decimal (tie : Tie) (m : Nat) (e : Int) : Decimal :=
  if m = 0 then ⟨0, 0⟩ else shortest tie m e

def positional : Binary64 → String
  | nan => "NaN"
  | infinite negative => signed negative "inf"
  | finite negative m e => signed negative (decimal .larger m e).positional.1

def pointed : Binary64 → String
  | finite negative m e => signed negative (decimal .larger m e).pointed
  | x => positional x

def compact : Binary64 → String
  | finite negative m e => signed negative (decimal .even m e).compact
  | x => positional x

end ContentTypes.Binary64
