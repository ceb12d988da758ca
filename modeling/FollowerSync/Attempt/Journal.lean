import FollowerSync.Attempt.Calls
import FollowerSync.Config.Settings

set_option autoImplicit false

namespace FollowerSync.Attempt

inductive Phase where
  | validate
  | backoff
  | waitForLeader
  | prepare
  | bulkSync
  | softLockCatchUp
  | hardLockFinalize
  | addFollower
  deriving DecidableEq, Repr

def Phase.text : Phase → String
  | validate => "validating job"
  | backoff => "delaying after failures"
  | waitForLeader => "waiting for leader"
  | prepare => "preparing synchronization"
  | bulkSync => "initial synchronization"
  | softLockCatchUp => "catch-up under soft lock"
  | hardLockFinalize => "finalize under hard lock"
  | addFollower => "registering as follower"

structure Journal where
  phase : Phase := .validate
  initialLeaderCount : UInt64 := 0
  initialFollowerCount : UInt64 := 0
  docCountAtEnd : UInt64 := 0
  term : FollowingTerm := ⟨0⟩
  progress : Progress := {}
  deadline : Option Instant := none
  deriving DecidableEq

/-- A part of an attempt that keeps the journal and may fail. -/
abbrev Stage := ExceptT Fault (StateT Journal Act)

structure Setting where
  server : String
  rebootId : UInt64
  settings : Settings
  /-- How many looks at the cluster a wait for the leader may take. -/
  patience : Nat

namespace Stage

def act {α : Type} (p : Act α) : Stage α := ExceptT.lift (StateT.lift p)

def attempt {α : Type} (p : Act (Except Fault α)) : Stage α := do
  match ← act p with
  | .ok a => return a
  | .error fault => throw fault

def result {α : Type} (s : Stage α) : Stage (Except Fault α) := ExceptT.lift s.run

def enter (phase : Phase) : Stage Unit := modify fun j => { j with phase }

def unlessStopping : Stage Unit := do
  if ← act (ask .stopping) then throw .shuttingDown

end Stage

def lastSecond : Nat := 0x7fffffffffffffff

/-- The moment after a duration has passed; the clock has to reach that far. -/
def momentAfter (d : Duration) : Act Instant := do
  let start ← ask .now
  if lastSecond < (start + d.nanos) / nanosPerSecond then stop .outOfRange
  return start + d.nanos

end FollowerSync.Attempt
