import FollowerSync.Document.Toml.Text
import FollowerSync.Document.Value

set_option autoImplicit false

namespace FollowerSync.Document.Toml
open Numeric

def digitBelow? (base : Nat) (c : Char) : Option Nat := (hexDigit? c).filter (· < base)

def isDigit (c : Char) : Bool := '0' ≤ c && c ≤ '9'

def moreDigits (base : Nat) : Scan (List Nat)
  | '_' :: c :: cs => do
    let d ← digitBelow? base c
    let (ds, rest) ← moreDigits base cs
    return (d :: ds, rest)
  | '_' :: [] => none
  | c :: cs =>
    match digitBelow? base c with
    | some d => do
      let (ds, rest) ← moreDigits base cs
      return (d :: ds, rest)
    | none => some ([], c :: cs)
  | [] => some ([], [])

def someDigits (base : Nat) : Scan (List Nat) := do
  let first ← (fun
    | c :: cs => (digitBelow? base c).map (·, cs)
    | [] => none : Scan Nat)
  return first :: (← moreDigits base)

def ofDigits (base : Nat) (ds : List Nat) : Nat := ds.foldl (fun n d => base * n + d) 0

def sign : Scan Bool
  | '-' :: cs => some (true, cs)
  | '+' :: cs => some (false, cs)
  | cs => some (false, cs)

def wholeDigits : Scan (List Nat)
  | '0' :: cs => some ([0], cs)
  | cs => someDigits 10 cs

def fitsInt64 (n : Int) : Bool := -0x8000000000000000 ≤ n && n < 0x8000000000000000

def signedDigits (digits : Scan (List Nat)) : Scan Int := do
  let negative ← sign
  let n : Int := ofDigits 10 (← digits)
  return if negative then -n else n

def wholeNumber : Scan Int := fun cs =>
  match cs with
  | '0' :: 'x' :: cs => (someDigits 16 cs).map fun (ds, rest) => (ofDigits 16 ds, rest)
  | '0' :: 'o' :: cs => (someDigits 8 cs).map fun (ds, rest) => (ofDigits 8 ds, rest)
  | '0' :: 'b' :: cs => (someDigits 2 cs).map fun (ds, rest) => (ofDigits 2 ds, rest)
  | cs => signedDigits wholeDigits cs

def integer : Scan Int := do
  let n ← wholeNumber
  if fitsInt64 n then return n else failure

def exponent : Scan Int := signedDigits (someDigits 10)

def isExponentMark : Option Char → Bool
  | some c => c = 'e' || c = 'E'
  | none => false

def decimal : Scan Binary64 := do
  let negative ← sign
  let whole ← wholeDigits
  let point := (← Scan.peek) = some '.'
  let fraction ← if point then Scan.char '.' *> someDigits 10 else pure []
  let power ← if isExponentMark (← Scan.peek) then
      Scan.satisfying (fun _ => true) *> exponent
    else if point then pure 0
    else failure
  let x := Binary64.ofDecimal negative (ofDigits 10 (whole ++ fraction)) (power - fraction.length)
  if x.isInfinite && !x.negative then failure else return x

def specialFloat : Scan Binary64 := do
  let negative ← sign
  match ← Scan.optional (Scan.word "inf") with
  | some _ => return .infinity negative
  | none =>
    Scan.word "nan"
    return .compose negative Binary64.nan.magnitude

def fixedDigits : Nat → Scan Nat
  | width, cs =>
    let ds := cs.take width
    if ds.length = width ∧ ds.all isDigit then
      some (ofDigits 10 (ds.filterMap hexDigit?), cs.drop width)
    else none

def fixedBetween (low high width : Nat) : Scan Nat := do
  let n ← fixedDigits width
  if low ≤ n ∧ n ≤ high then return n else failure

def isLeapYear (year : Nat) : Bool := year % 4 = 0 && (year % 100 ≠ 0 || year % 400 = 0)

def daysInMonth (year month : Nat) : Nat :=
  if month = 2 then (if isLeapYear year then 29 else 28)
  else if month = 4 ∨ month = 6 ∨ month = 9 ∨ month = 11 then 30
  else 31

def date : Scan Unit := do
  let year ← fixedDigits 4
  Scan.char '-'
  let month ← fixedBetween 1 12 2
  Scan.char '-'
  let _ ← fixedBetween 1 (daysInMonth year month) 2

def hourAndMinute : Scan Unit := do
  let _ ← fixedBetween 0 23 2
  Scan.char ':'
  let _ ← fixedBetween 0 59 2

def time : Scan Unit := do
  hourAndMinute
  Scan.char ':'
  let _ ← fixedBetween 0 60 2
  if (← Scan.peek) = some '.' then
    Scan.char '.'
    if (← Scan.takeWhile isDigit).isEmpty then failure

def offset : Scan Unit := do
  let mark ← Scan.satisfying fun c => c = 'Z' || c = 'z' || c = '+' || c = '-'
  if mark = '+' || mark = '-' then hourAndMinute

def timeAfterDate : Scan Unit := do
  let _ ← Scan.satisfying fun c => c = 'T' || c = 't' || c = ' '
  time
  let _ ← Scan.optional offset

def moment : Scan Unit := do
  match ← Scan.optional date with
  | some _ =>
    let _ ← Scan.optional timeAfterDate
  | none => time

/-- What begins with a digit or a sign. A moment is told from a number by its first five
characters at the latest, so the order of the attempts does not matter to what is accepted. -/
def numeral : Scan Value := do
  match ← Scan.optional moment with
  | some _ => return .moment
  | none =>
    match ← Scan.optional decimal with
    | some x => return .float x
    | none =>
      match ← Scan.optional specialFloat with
      | some x => return .float x
      | none => return .integer (← integer)

end FollowerSync.Document.Toml
