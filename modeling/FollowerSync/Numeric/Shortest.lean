import FollowerSync.Numeric.Binary64

/-!
# Shortest decimals

The decimal with the fewest digits that reads back as a given double, and of those the one
nearest to it. A decimal reads back when it lies between the midpoints to the two neighbouring
doubles; a midpoint itself counts when the double is the even one of the two.
-/

set_option autoImplicit false

namespace FollowerSync.Numeric

structure Decimal where
  digits : Nat
  exponent : Int
  deriving DecidableEq, Repr

namespace Decimal

def stripZeros : Nat → Decimal → Decimal
  | 0, d => d
  | fuel + 1, d =>
    if d.digits ≠ 0 ∧ d.digits % 10 = 0 then stripZeros fuel ⟨d.digits / 10, d.exponent + 1⟩
    else d

end Decimal

namespace Shortest

/-- Where a double lies: its value and the two midpoints around it, in units of
`2 ^ (-1075)`. -/
structure Cell where
  value : Nat
  low : Nat
  high : Nat
  closed : Bool

def cell (magnitude : Nat) : Cell :=
  let u := Binary64.unitsOf magnitude
  { value := 2 * u
    low := u + Binary64.unitsOf (magnitude - 1)
    high := u + Binary64.unitsOf (magnitude + 1)
    closed := magnitude % 2 = 0 }

def Cell.one : Nat := 2 * Binary64.one

def digitCount (n : Nat) : Nat := (Nat.toDigits 10 n).length

def Cell.decimalExponent (c : Cell) : Int :=
  if Cell.one ≤ c.value then digitCount (c.value / Cell.one)
  else 1 - (digitCount ((Cell.one + c.value - 1) / c.value - 1) : Int)

def Cell.holds (c : Cell) (num den : Nat) : Bool :=
  if c.closed then c.low * den ≤ num && num ≤ c.high * den
  else c.low * den < num && num < c.high * den

/-- The point of the grid of `10 ^ exponent` that lies in the cell, the nearer one if its two
neighbours do. `tieUp` says where an exact tie goes. -/
def Cell.onGrid (c : Cell) (tieUp : Bool) (exponent : Int) : Option Decimal :=
  let (up, down) :=
    if 0 ≤ exponent then (Nat.pow 10 exponent.toNat, 1) else (1, Nat.pow 10 (-exponent).toNat)
  let point (n : Nat) := n * up * Cell.one
  let below := c.value * down / (up * Cell.one)
  match c.holds (point below) down, c.holds (point (below + 1)) down with
  | true, true =>
    let left := c.value * down - point below
    let right := point (below + 1) - c.value * down
    let next := right < left || (left = right && (tieUp || below % 2 = 1))
    some ⟨if next then below + 1 else below, exponent⟩
  | true, false => some ⟨below, exponent⟩
  | false, true => some ⟨below + 1, exponent⟩
  | false, false => none

def Cell.search (c : Cell) (tieUp : Bool) (top : Int) : Nat → Nat → Decimal
  | 0, count => Decimal.stripZeros count ⟨c.value / Cell.one, 0⟩
  | fuel + 1, count =>
    match c.onGrid tieUp (top - count) with
    | some d => d.stripZeros (count + 1)
    | none => c.search tieUp top fuel (count + 1)

end Shortest

/-- The shortest decimal of a finite double's absolute value. Seventeen digits always suffice. -/
def Binary64.shortest (tieUp : Bool) (x : Binary64) : Decimal :=
  if x.magnitude = 0 then ⟨0, 0⟩
  else
    let c := Shortest.cell x.magnitude
    c.search tieUp c.decimalExponent 17 1

end FollowerSync.Numeric
