import FollowerSync.Attempt.Future
import FollowerSync.Attempt.Journal

set_option autoImplicit false

namespace FollowerSync.Attempt

def snoozeStep : Duration := .ofMillis 100

def longestSnooze : Duration := .ofMillis 2000

def snooze (tries : Nat) : Duration :=
  .ofNanos (min ((tries + 1) * snoozeStep.nanos) longestSnooze.nanos)

def fetchLimit (wait : Duration) : Option Duration := wait.scale? (.ofRatio false 1 10)

/-- Asks for the current version until one above zero is known, the wait is over, or the server
stops. The fuel bounds the number of tries. -/
def fetchVersion (limit : Duration) (stopAt : Instant) (tries : Nat) : Nat → Act (Option UInt64)
  | 0 => return none
  | fuel + 1 => do
    if ← ask .stopping then return none
    if stopAt ≤ (← ask .now) then return none
    let answer ← ask (.fetchVersion limit)
    match answer with
    | .ok version =>
      if version ≠ 0 then return some version
    | .error _ => pure ()
    ask (.sleep (snooze tries))
    fetchVersion limit stopAt (tries + 1) fuel

/-- As no pause is shorter than a step, so many tries use the wait up. -/
def triesWithin (wait : Duration) : Nat := wait.nanos / snoozeStep.nanos + 2

/-- A task that is woken to no purpose more often than a wait has nanoseconds gives it up. -/
def pollsWithin (wait : Duration) : Nat := wait.nanos + 1

def loadVersion (version : UInt64) (limit wait : Duration) : Act Unit := do
  let loading ← (Future.loading version).timeout limit
  let _ ← (loading.either .stopping).await 0 (pollsWithin wait)

def awaitCurrentVersion (wait : Duration) : Act Unit := do
  let stopAt ← momentAfter wait
  match fetchLimit wait with
  | none => stop .outOfRange
  | some limit =>
    match ← fetchVersion limit stopAt 0 (triesWithin wait) with
    | none => return
    | some version =>
      let now ← ask .now
      loadVersion version (.ofNanos (stopAt - now)) wait

def recordOutcome (job : Job) : Option Fault → Act Unit
  | none => ask (.upkeep (.clearFailures job.key))
  | some fault => do
    if fault ≠ .requeued ∧ fault.countsAsFailure then
      let _ ← ask (.upkeep (.recordFailure job.key))
    if fault = .attemptTimeout then
      ask (.upkeep .countTimedOut)

/-- A job that is to be run again keeps its shard locked. -/
def close (setting : Setting) (job : Job) (fault : Option Fault) : Act Unit := do
  recordOutcome job fault
  if fault ≠ some .requeued then
    awaitCurrentVersion setting.settings.currentVersionWait
    let _ ← ask (.upkeep (.advanceVersion job.key))
    ask (.upkeep (.unlock job.key))

end FollowerSync.Attempt
