import ContentTypes.Binary64

/-!
# TOML values

The entries of a table have different keys and keep their order. A moment is kept in its parts.
-/

namespace ContentTypes.Toml

structure Date where
  year : Nat
  month : Nat
  day : Nat
  deriving DecidableEq, Repr

structure Time where
  hour : Nat
  minute : Nat
  second : Nat
  nanosecond : Nat
  deriving DecidableEq, Repr

inductive TimeOffset where
  | universal
  | minutes (value : Int)
  deriving DecidableEq, Repr

structure Moment where
  date? : Option Date := none
  time? : Option Time := none
  offset? : Option TimeOffset := none
  deriving DecidableEq, Repr

inductive Value where
  | string (text : String)
  | integer (value : Int)
  | float (value : Binary64)
  | boolean (value : Bool)
  | moment (value : Moment)
  | array (items : List Value)
  | table (entries : List (String × Value))
  deriving Repr

def padded (width n : Nat) : String :=
  let digits := Nat.toDigits 10 n
  String.ofList (List.replicate (width - digits.length) '0' ++ digits)

def Date.text (date : Date) : String :=
  padded 4 date.year ++ "-" ++ padded 2 date.month ++ "-" ++ padded 2 date.day

def Time.text (time : Time) : String :=
  let fraction := ((padded 9 time.nanosecond).toList.reverse.dropWhile (· = '0')).reverse
  padded 2 time.hour ++ ":" ++ padded 2 time.minute ++ ":" ++ padded 2 time.second
    ++ if fraction = [] then "" else "." ++ String.ofList fraction

def TimeOffset.text : TimeOffset → String
  | universal => "Z"
  | minutes value =>
    let size := value.natAbs
    (if value < 0 then "-" else "+") ++ padded 2 (size / 60) ++ ":" ++ padded 2 (size % 60)

/-- The one text for a moment: a `T` before the time, no zeros at the end of a fraction. -/
def Moment.text (moment : Moment) : String :=
  let date := (moment.date?.map (·.text)).getD ""
  let time := (moment.time?.map (·.text)).getD ""
  let mark := if moment.date?.isSome && moment.time?.isSome then "T" else ""
  date ++ mark ++ time ++ (moment.offset?.map (·.text)).getD ""

end ContentTypes.Toml
