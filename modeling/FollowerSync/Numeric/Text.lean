import FollowerSync.Numeric.Shortest

set_option autoImplicit false

namespace FollowerSync.Numeric

def digitsText (n : Nat) : String := String.ofList (Nat.toDigits 10 n)

def zeros (n : Nat) : String := String.ofList (List.replicate n '0')

def pointedText (digits places : Nat) : String :=
  if places = 0 then digitsText digits
  else
    let ds := Nat.toDigits 10 digits
    let ds := List.replicate (places + 1 - ds.length) '0' ++ ds
    String.ofList (ds.take (ds.length - places) ++ '.' :: ds.drop (ds.length - places))

def Decimal.positional (d : Decimal) : String :=
  if 0 ≤ d.exponent then
    if d.digits = 0 then "0" else digitsText d.digits ++ zeros d.exponent.toNat
  else pointedText d.digits (-d.exponent).toNat

namespace Binary64

def signText (x : Binary64) : String := if x.negative then "-" else ""

/-- The text of a number in messages: the sign of zero is kept and whole numbers have no point. -/
def plainText (x : Binary64) : String :=
  if x.isNaN then "NaN"
  else if x.isInfinite then x.signText ++ "inf"
  else x.signText ++ (x.shortest true).positional

def isWhole (x : Binary64) : Bool := x.isFinite && x.units % one = 0

/-- The text of a number in a configuration file: whole numbers keep one decimal place. -/
def settingText (x : Binary64) : String :=
  if x.isNaN then x.signText ++ "nan"
  else if x.isWhole then x.plainText ++ ".0"
  else x.plainText

/-- The text of a finite number in a JSON document: positional for magnitudes from `1e-5` to
below `1e16`, else one digit, a point, the rest and the exponent. -/
def jsonText (x : Binary64) : String :=
  let d := x.shortest false
  let ds := Nat.toDigits 10 d.digits
  let top : Int := ds.length + d.exponent
  let body :=
    if d.digits = 0 then "0.0"
    else if 0 ≤ d.exponent ∧ top ≤ 16 then d.positional ++ ".0"
    else if -5 < top ∧ top ≤ 16 then d.positional
    else
      let rest := ds.drop 1
      let fraction := if rest.isEmpty then "" else "." ++ String.ofList rest
      let power := top - 1
      String.ofList (ds.take 1) ++ fraction ++ "e" ++
        (if power < 0 then "-" else "") ++ digitsText power.natAbs
  x.signText ++ body

/-- The text of a finite number with exactly `places` decimal places; a half goes to the even
neighbour. -/
def fixedText (places : Nat) (x : Binary64) : String :=
  x.signText ++ pointedText (roundHalfEven (x.units * Nat.pow 10 places) one) places

end Binary64
end FollowerSync.Numeric
