import FollowerSync.Attempt.Copying
import FollowerSync.Attempt.Guard

set_option autoImplicit false

namespace FollowerSync.Attempt
open Leader

def lockRequest (setting : Setting) (job : Job) (mode : LockMode) (ttl : Duration) :
    LockRequest where
  database := job.database
  lockId := 0
  collection := job.shard
  ttl
  serverId := setting.server
  clientId := job.clientId
  rebootId := setting.rebootId
  mode
  wantFollowingTerm := true

/-- A lock is asked for at most as long as it is to live. -/
def acquireLock (setting : Setting) (job : Job) (endpoint : String) (mode : LockMode)
    (ttl : Duration) : Stage Guard :=
  classified setting job (Guard.acquire endpoint (lockRequest setting job mode ttl) ttl
    setting.settings.cancelLockTimeout)

/-- One round under a soft lock. Yields whether its budget was used up. -/
def softRound (setting : Setting) (job : Job) (endpoint : String) (budget : Duration) :
    Stage Bool := do
  Stage.unlessStopping
  let guard ← acquireLock setting job endpoint .soft setting.settings.softLockTimeout
  let j ← get
  match ← Stage.act (ask (.catchUp job.shard j.progress.lastLogTick budget j.context)) with
  | .error fault =>
    Stage.act guard.releaseQuietly
    throw (← classify setting job fault)
  | .ok outcome =>
    Stage.attempt guard.release
    modify fun j => { j with progress := j.progress.advance outcome.tickReached }
    return outcome.timedOut

def softRounds (setting : Setting) (job : Job) (endpoint : String) (budget : Duration) :
    Nat → Stage Unit
  | 0 => return
  | rounds + 1 => do
    if ← softRound setting job endpoint budget then softRounds setting job endpoint budget rounds

def catchUpSoftly (setting : Setting) (job : Job) (endpoint : String) : Stage Unit := do
  Stage.enter .softLockCatchUp
  match setting.settings.softCatchUpBudget? with
  | none => Stage.act (stop .outOfRange)
  | some budget =>
    softRounds setting job endpoint budget setting.settings.softLockMaxRounds.toNat

def addFollowerRequest (setting : Setting) (job : Job) (checksum syncerId lockId : UInt64) :
    AddFollowerRequest where
  database := job.database
  followerId := setting.server
  shard := job.shard
  checksum
  syncerId
  clientId := job.clientId
  clientInfo := job.clientInfo setting.server
  lockId

/-- From here on replication is accepted from the leader's new term only. -/
def adoptTerm (job : Job) : Stage Unit := do
  let leaderId := (← get).term.leaderId job.leader
  Stage.attempt (ask (.setLeader leaderId))
  Stage.act (ask (.followLeader leaderId))

def finalizeLog (setting : Setting) (job : Job) : Stage Unit := do
  let j ← get
  classified setting job
    (ask (.finalize job.shard j.progress.lastLogTick j.progress.upperBound j.context))

def register (setting : Setting) (job : Job) (endpoint : String) (syncerId lockId : UInt64) :
    Stage Unit := do
  Stage.enter .addFollower
  let checksum ← Stage.attempt (ask .documentCount)
  modify fun j => { j with docCountAtEnd := checksum }
  Stage.attempt (ask (.leader endpoint
    (.addFollower (addFollowerRequest setting job checksum syncerId lockId))
    setting.settings.addFollowerTimeout))

def finalizeAndRegister (setting : Setting) (job : Job) (endpoint : String)
    (syncerId lockId : UInt64) : Stage Unit := do
  adoptTerm job
  finalizeLog setting job
  register setting job endpoint syncerId lockId

/-- Counts anew here and, where that changes nothing, has the leader count anew. -/
def repairChecksum (setting : Setting) (job : Job) (endpoint : String) : Stage Unit := do
  Stage.act (ask (.upkeep .countWrongChecksum))
  let old ← Stage.attempt (ask .documentCount)
  let new ← Stage.attempt (ask .recountDocuments)
  if old = new then
    let _ ← Stage.act (ask (.leader endpoint (.recalculateCount job.database job.shard)
      setting.settings.leaderRecountTimeout))

def mismatch : Fault → Fault
  | .checksumMismatch reason => .checksumMismatch reason
  | fault => .checksumMismatch fault.message

/-- What follows from the outcome under the hard lock, when the lock is gone. -/
def concludeHardLock (setting : Setting) (job : Job) (endpoint : String) :
    Except Fault Unit → Stage Unit
  | .ok () => return
  | .error fault => do
    if (← get).phase = .addFollower ∧ fault.code = .wrongChecksum then
      repairChecksum setting job endpoint
      throw (mismatch fault)
    else throw fault

def catchUpHard (setting : Setting) (job : Job) (endpoint : String) (syncerId : UInt64) :
    Stage Unit := do
  Stage.enter .hardLockFinalize
  let guard ← acquireLock setting job endpoint .hard setting.settings.hardLockTimeout
  modify fun j =>
    { j with term := guard.grant.term
             progress := { j.progress with upperBound := guard.grant.lastLogTick } }
  let result ← Stage.result (finalizeAndRegister setting job endpoint syncerId guard.lockId)
  Stage.act guard.releaseQuietly
  concludeHardLock setting job endpoint result

end FollowerSync.Attempt
