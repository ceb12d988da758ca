import FollowerSync.Fault
import FollowerSync.Numeric.Text

set_option autoImplicit false

namespace FollowerSync
open Numeric

namespace Config

structure Node where
  id : String
  /-- Lets a leader drop the locks of an earlier incarnation of this server. -/
  rebootId : UInt64 := 0
  deriving DecidableEq

/-- How synchronization is paced. Times are in seconds unless they say otherwise. -/
structure Pacing where
  attemptTimeout : UInt64 := 0
  readinessPollMillis : UInt64 := 200
  softLockMaxRounds : UInt32 := 18
  softLockTimeout : UInt64 := 300
  /-- The share of a soft lock's time that is spent following the leader's log. -/
  softLockDutyCycle : Binary64 := .ofRatio false 3 5
  hardLockTimeout : UInt64 := 600
  cancelLockTimeout : UInt64 := 60
  addFollowerTimeout : UInt64 := 60
  leaderCountTimeout : UInt64 := 60
  leaderRecountTimeout : UInt64 := 900
  /-- A job whose document counts differ by more is run again later. -/
  requeueDocDiffThreshold : UInt64 := 10000
  backoffFailureThreshold : UInt64 := 4
  backoffMax : Binary64 := .ofNat 15
  backoffStepMillis : UInt64 := 500
  currentVersionWait : UInt64 := 600
  longBulkSync : UInt64 := 5
  deriving DecidableEq

structure Requests where
  connectTimeoutMillis : UInt64 := 5000
  requestTimeoutSecs : UInt64 := 60
  deriving DecidableEq

structure Logging where
  level : String := "info"
  format : String := "pretty"
  deriving DecidableEq

end Config

structure Config where
  node : Config.Node
  pacing : Config.Pacing := {}
  requests : Config.Requests := {}
  logging : Config.Logging := {}
  deriving DecidableEq

namespace Config

def forNode (id : String) : Config := { node := { id } }

def isShare (x : Binary64) : Bool := (Binary64.ofNat 0).lt x && x.le (.ofNat 1)

def isSpan (x : Binary64) : Bool := x.isFinite && (Binary64.ofNat 0).le x

def complaint? (c : Config) : Option String :=
  let p := c.pacing
  if c.node.id = "" then some "node.id cannot be empty"
  else if !isShare p.softLockDutyCycle then
    some ("sync.soft_lock_duty_cycle must be in (0, 1], got " ++ p.softLockDutyCycle.plainText)
  else if p.softLockMaxRounds = 0 then some "sync.soft_lock_max_rounds must be at least 1"
  else if !isSpan p.backoffMax then
    some ("sync.backoff_max_secs must be a non-negative number of seconds, got " ++
      p.backoffMax.plainText)
  else if p.readinessPollMillis = 0 then some "sync.readiness_poll_ms must be positive"
  else if p.backoffStepMillis = 0 then some "sync.backoff_step_ms must be positive"
  else none

def validate (c : Config) : Except Fault Unit :=
  match c.complaint? with
  | none => .ok ()
  | some reason => .error (.config reason)

end Config
end FollowerSync
