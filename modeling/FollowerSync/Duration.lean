import FollowerSync.Numeric.Text

set_option autoImplicit false

namespace FollowerSync
open Numeric

/-- A moment on the monotonic clock, in nanoseconds. -/
abbrev Instant := Nat

def nanosPerSecond : Nat := 1000000000

def nanosPerMilli : Nat := 1000000

structure Duration where
  nanos : Nat
  inRange : nanos < UInt64.size * nanosPerSecond
  deriving DecidableEq

namespace Duration

@[ext] theorem ext {a b : Duration} (h : a.nanos = b.nanos) : a = b := by
  cases a
  cases b
  simp_all

def ofNanos? (n : Nat) : Option Duration :=
  if h : n < UInt64.size * nanosPerSecond then some ⟨n, h⟩ else none

/-- The longest duration stands for everything beyond it. -/
def ofNanos (n : Nat) : Duration :=
  ⟨min n (UInt64.size * nanosPerSecond - 1), by unfold nanosPerSecond UInt64.size; omega⟩

def ofSecs (s : UInt64) : Duration :=
  ⟨s.toNat * nanosPerSecond, by
    have := s.toNat_lt
    unfold nanosPerSecond UInt64.size
    omega⟩

def ofMillis (ms : UInt64) : Duration :=
  ⟨ms.toNat * nanosPerMilli, by
    have := ms.toNat_lt
    unfold nanosPerMilli nanosPerSecond UInt64.size
    omega⟩

def zero : Duration := ⟨0, by decide⟩

instance : Inhabited Duration := ⟨zero⟩

def isZero (d : Duration) : Bool := d.nanos = 0

def secs (d : Duration) : Nat := d.nanos / nanosPerSecond

def subsecNanos (d : Duration) : Nat := d.nanos % nanosPerSecond

theorem secs_lt (d : Duration) : d.secs < UInt64.size :=
  Nat.div_lt_of_lt_mul (Nat.mul_comm _ nanosPerSecond ▸ d.inRange)

theorem subsecNanos_lt (d : Duration) : d.subsecNanos < nanosPerSecond :=
  Nat.mod_lt _ (by decide)

theorem nanos_eq (d : Duration) : d.nanos = d.secs * nanosPerSecond + d.subsecNanos := by
  unfold secs subsecNanos
  rw [Nat.mul_comm, Nat.div_add_mod]

/-- The seconds as a double: whole seconds and the fraction are rounded apart, then their sum. -/
def toSeconds (d : Duration) : Binary64 :=
  (Binary64.ofNat d.secs).add (Binary64.ofRatio false d.subsecNanos nanosPerSecond)

/-- The nearest whole number of nanoseconds; none for a negative number, for one of `2 ^ 64`
seconds or more, and for what is not a number. -/
def ofSeconds? (x : Binary64) : Option Duration :=
  if x.isNaN || x.isInfinite then none
  else if x.negative && x.units ≠ 0 then none
  else if UInt64.size * Binary64.one ≤ x.units then none
  else ofNanos? (roundHalfEven (x.units * nanosPerSecond) Binary64.one)

def scale? (d : Duration) (x : Binary64) : Option Duration := ofSeconds? (x.mul d.toSeconds)

def trimmedDecimal (whole fraction places : Nat) : String :=
  let ds := Nat.toDigits 10 fraction
  let ds := List.replicate (places - ds.length) '0' ++ ds
  let kept := (ds.reverse.dropWhile (· = '0')).reverse
  digitsText whole ++ (if kept.isEmpty then "" else "." ++ String.ofList kept)

/-- The duration in the largest unit of s, ms, µs and ns in which it is at least one. -/
def text (d : Duration) : String :=
  if 0 < d.secs then trimmedDecimal d.secs d.subsecNanos 9 ++ "s"
  else if nanosPerMilli ≤ d.nanos then
    trimmedDecimal (d.nanos / nanosPerMilli) (d.nanos % nanosPerMilli) 6 ++ "ms"
  else if 1000 ≤ d.nanos then trimmedDecimal (d.nanos / 1000) (d.nanos % 1000) 3 ++ "µs"
  else digitsText d.nanos ++ "ns"

end Duration
end FollowerSync
