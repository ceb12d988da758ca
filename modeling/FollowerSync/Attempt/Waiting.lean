import FollowerSync.Attempt.Journal
import FollowerSync.Maintenance.Backoff

set_option autoImplicit false

namespace FollowerSync.Attempt

def slices (total step : Duration) : List Duration :=
  List.replicate (total.nanos / step.nanos) step ++
    (if total.nanos % step.nanos = 0 then [] else [.ofNanos (total.nanos % step.nanos)])

def sleepSlices : List Duration → Act (Except Fault Unit)
  | [] => return .ok ()
  | slice :: rest => do
    if ← ask .stopping then return .error .shuttingDown
    ask (.sleep slice)
    sleepSlices rest

/-- A sleep in slices of nothing would not end unless the server stops. -/
def sleepUnlessStopping (total step : Duration) : Act (Except Fault Unit) := do
  if total.isZero then return .ok ()
  if step.isZero then
    if ← ask .stopping then return .error .shuttingDown
    stop .outOfPatience
  sleepSlices (slices total step)

def delayAfterFailures (setting : Setting) (job : Job) : Act (Except Fault Unit) := do
  let failures : Nat ← ask (.upkeep (.failures job.key))
  let s := setting.settings
  let threshold := s.backoffFailureThreshold.toNat
  if ¬BackoffFits failures threshold then stop .outOfRange
  match backoffDelay failures threshold s.backoffMax with
  | none => return .ok ()
  | some delay => sleepUnlessStopping delay s.backoffStep

/-- The shard and the time of an attempt, as messages name them. The times on the wall are left
open. -/
def shardInfo (job : Job) : String :=
  "local shard: '" ++ job.database ++ "/" ++ job.shard ++ "', for central: '" ++ job.database ++
    "/" ++ job.planId ++ "', started: <time>, ended: <time>"

/-- One look at the cluster. A plan that cannot be read is taken for one that names nobody. -/
def look (setting : Setting) (job : Job) : Act (Except Fault Cluster.Readiness) := do
  match ← ask (.plannedServers job.place) with
  | .error _ => return .ok (.cancel "cancelled")
  | .ok planned =>
    match ← ask (.currentServers job.place) with
    | .error fault => return .error fault
    | .ok current =>
      return .ok (Cluster.assess planned current job.leader setting.server job.forcedResync)

def waitForLeader (setting : Setting) (job : Job) : Nat → Act (Except Fault Unit)
  | 0 => stop .outOfPatience
  | looks + 1 => do
    if ← ask .stopping then return .error .shuttingDown
    match ← look setting job with
    | .error fault => return .error fault
    | .ok .proceed => return .ok ()
    | .ok (.cancel reason) => return .error (.planChanged (reason ++ ", " ++ shardInfo job))
    | .ok .wait =>
      ask (.sleep setting.settings.readinessPoll)
      waitForLeader setting job looks

end FollowerSync.Attempt
