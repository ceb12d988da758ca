set_option autoImplicit false

namespace FollowerSync.Wire.Utf8

inductive Problem where
  /-- From `start` on, `length` bytes form the beginning of no character. -/
  | invalid (start length : Nat)
  /-- The character that begins at `start` is cut off. -/
  | incomplete (start : Nat)
  deriving DecidableEq, Repr

def Problem.message : Problem → String
  | invalid start length =>
    "invalid utf-8 sequence of " ++ toString length ++ " bytes from index " ++ toString start
  | incomplete start => "incomplete utf-8 byte sequence from index " ++ toString start

structure Range where
  low : UInt8
  high : UInt8

def Range.holds (r : Range) (b : UInt8) : Bool := r.low ≤ b && b ≤ r.high

def tail : Range := ⟨0x80, 0xBF⟩

/-- The ranges of the bytes that follow a first byte; none if no character begins with it. -/
def following (b : UInt8) : Option (List Range) :=
  if b ≤ 0x7F then some []
  else if b < 0xC2 then none
  else if b ≤ 0xDF then some [tail]
  else if b = 0xE0 then some [⟨0xA0, 0xBF⟩, tail]
  else if b = 0xED then some [⟨0x80, 0x9F⟩, tail]
  else if b ≤ 0xEF then some [tail, tail]
  else if b = 0xF0 then some [⟨0x90, 0xBF⟩, tail, tail]
  else if b ≤ 0xF3 then some [tail, tail, tail]
  else if b = 0xF4 then some [⟨0x80, 0x8F⟩, tail, tail]
  else none

/-- Scans on at `index`, inside the character that began at `start` and still needs bytes of
the given ranges, or between characters if it needs none. -/
def scan : List UInt8 → Nat → Nat → List Range → Option Problem
  | [], _, _, [] => none
  | [], _, start, _ :: _ => some (.incomplete start)
  | b :: bytes, index, _, [] =>
    match following b with
    | none => some (.invalid index 1)
    | some ranges => scan bytes (index + 1) index ranges
  | b :: bytes, index, start, r :: ranges =>
    if r.holds b then scan bytes (index + 1) start ranges
    else some (.invalid start (index - start))

def text? (bytes : List UInt8) : Option String := String.fromUTF8? ⟨bytes.toArray⟩

def problem? (bytes : List UInt8) : Option Problem := scan bytes 0 0 []

end FollowerSync.Wire.Utf8
