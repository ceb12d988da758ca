import FollowerSync.Numeric.Binary64

set_option autoImplicit false

namespace FollowerSync.Document
open Numeric

inductive Value where
  | null
  | boolean (b : Bool)
  | integer (n : Int)
  | float (x : Binary64)
  | text (s : String)
  /-- A date, a time, or both. No reader asks which one. -/
  | moment
  | list (items : List Value)
  | table (fields : List (String × Value))
  deriving Inhabited

abbrev Reader (α : Type) := Value → Option α

namespace Value

def boolean? : Reader Bool
  | boolean b => some b
  | _ => none

def text? : Reader String
  | text s => some s
  | _ => none

def natBelow? (bound : Nat) : Reader Nat
  | integer n => if 0 ≤ n ∧ n < bound then some n.toNat else none
  | _ => none

def uint64? : Reader UInt64 := fun v => (v.natBelow? UInt64.size).map .ofNat

def uint32? : Reader UInt32 := fun v => (v.natBelow? UInt32.size).map .ofNat

def float? : Reader Binary64
  | float x => some x
  | integer n => some (.ofInt n)
  | _ => none

end Value

/-- Whether a list may hold more values than the record read from it has. -/
inductive ListForm where
  | exact
  | surplus
  deriving DecidableEq

/-- The values of a record with the given field names, none where a field is absent. A moment
holds no field at all. -/
def Value.fields? (form : ListForm) (names : List String) : Reader (List (Option Value))
  | table fields => some (names.map fun name => fields.lookup name)
  | list items =>
    if form = .exact ∧ names.length < items.length then none
    else some ((List.range names.length).map fun i => items[i]?)
  | moment => some (names.map fun _ => none)
  | _ => none

def required {α : Type} (read : Reader α) : Option Value → Option α
  | some v => read v
  | none => none

def optional {α : Type} (read : Reader α) (absent : α) : Option Value → Option α
  | some v => read v
  | none => some absent

end FollowerSync.Document
