import FollowerSync.Duration

set_option autoImplicit false

namespace FollowerSync
open Numeric

def triangle (n : Nat) : Nat := n * (n + 1) / 2

/-- `2 + 0.1 * triangle n` seconds, in double precision, and at most the cap. -/
def backoffSeconds (failures : Nat) (cap : Duration) : Binary64 :=
  let tenth := Binary64.ofRatio false 1 10
  ((Binary64.ofNat 2).add (tenth.mul (Binary64.ofNat (triangle failures)))).min cap.toSeconds

def backoffDelay (failures threshold : Nat) (cap : Duration) : Option Duration :=
  if failures < threshold then none else Duration.ofSeconds? (backoffSeconds failures cap)

/-- From the threshold on the product of which the triangle is half has to fit into 64 bits; where
it does, the delay is a duration. -/
def BackoffFits (failures threshold : Nat) : Prop :=
  threshold ≤ failures → failures * (failures + 1) < UInt64.size

instance (failures threshold : Nat) : Decidable (BackoffFits failures threshold) :=
  inferInstanceAs (Decidable (_ → _))

theorem backoffDelay_of_lt {failures threshold : Nat} (h : failures < threshold)
    (cap : Duration) : backoffDelay failures threshold cap = none := by
  simp [backoffDelay, h]

end FollowerSync
