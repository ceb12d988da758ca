import FollowerSync.Numeric.Rounding

set_option autoImplicit false

namespace FollowerSync.Numeric

structure Binary64 where
  bits : UInt64
  deriving DecidableEq, Repr, Inhabited

namespace Binary64

def signWeight : Nat := 0x8000000000000000

def stride : Nat := 0x10000000000000

def magnitude (x : Binary64) : Nat := x.bits.toNat % signWeight

def negative (x : Binary64) : Bool := signWeight ≤ x.bits.toNat

def infiniteMagnitude : Nat := 2047 * stride

def isNaN (x : Binary64) : Bool := infiniteMagnitude < x.magnitude

def isInfinite (x : Binary64) : Bool := x.magnitude = infiniteMagnitude

def isFinite (x : Binary64) : Bool := x.magnitude < infiniteMagnitude

def compose (negative : Bool) (magnitude : Nat) : Binary64 :=
  ⟨.ofNat (if negative then signWeight + magnitude else magnitude)⟩

def nan : Binary64 := ⟨0x7ff8000000000000⟩

def infinity (negative : Bool) : Binary64 := compose negative infiniteMagnitude

def one : Nat := 1 <<< 1074

def unitsOf (magnitude : Nat) : Nat :=
  let scale := magnitude / stride
  let fraction := magnitude % stride
  if scale = 0 then fraction else (stride + fraction) <<< (scale - 1)

def units (x : Binary64) : Nat := unitsOf x.magnitude

/-- The magnitude nearest to `num / den`. The shift is the least that leaves at most 53
significant bits; a quotient that rounds up to the next power of two carries into it by itself. -/
def nearestMagnitude (num den : Nat) : Nat :=
  let scaled := num * one
  let shift := (scaled / den).log2 - 52
  min (shift * stride + roundHalfEven scaled (den <<< shift)) infiniteMagnitude

def ofRatio (negative : Bool) (num den : Nat) : Binary64 :=
  compose negative (nearestMagnitude num den)

def ofNat (n : Nat) : Binary64 := ofRatio false n 1

def ofInt (n : Int) : Binary64 := ofRatio (n < 0) n.natAbs 1

def mul (x y : Binary64) : Binary64 :=
  let sign := x.negative != y.negative
  if x.isNaN || y.isNaN then nan
  else if x.isInfinite || y.isInfinite then
    if x.units = 0 || y.units = 0 then nan else infinity sign
  else ofRatio sign (x.units * y.units) (one * one)

def signedUnits (x : Binary64) : Int := if x.negative then -(x.units : Int) else x.units

def add (x y : Binary64) : Binary64 :=
  if x.isNaN || y.isNaN then nan
  else if x.isInfinite then if y.isInfinite && x.negative != y.negative then nan else x
  else if y.isInfinite then y
  else
    let sum := x.signedUnits + y.signedUnits
    let sign := if sum = 0 then x.negative && y.negative else sum < 0
    ofRatio sign sum.natAbs one

/-- Position on the number line, also of infinities; both zeros have the same. -/
def rank (x : Binary64) : Int := if x.negative then -(x.magnitude : Int) else x.magnitude

def le (x y : Binary64) : Bool := !x.isNaN && !y.isNaN && x.rank ≤ y.rank

def lt (x y : Binary64) : Bool := !x.isNaN && !y.isNaN && x.rank < y.rank

def min (x y : Binary64) : Binary64 := if y.lt x then y else x

/-- The number `digits * 10 ^ exponent`. Exponents so far out that no digit can matter are
decided without writing the power out. -/
def ofDecimal (negative : Bool) (digits : Nat) (exponent : Int) : Binary64 :=
  let width : Int := (Nat.toDigits 10 digits).length
  if digits = 0 then compose negative 0
  else if 400 < exponent then infinity negative
  else if exponent + width < -400 then compose negative 0
  else if 0 ≤ exponent then ofRatio negative (digits * Nat.pow 10 exponent.toNat) 1
  else ofRatio negative digits (Nat.pow 10 (-exponent).toNat)

end Binary64
end FollowerSync.Numeric
