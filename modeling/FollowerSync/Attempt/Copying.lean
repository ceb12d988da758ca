import FollowerSync.Attempt.Context
import FollowerSync.Attempt.Journal

set_option autoImplicit false

namespace FollowerSync.Attempt

def Journal.context (journal : Journal) : Context := { deadline := journal.deadline }

def planCheck (setting : Setting) (job : Job) : PlanCheck :=
  { place := job.place, leader := job.leader, server := setting.server }

/-- The context of calls that also end when this server is no longer planned as a follower. -/
def Journal.plannedContext (journal : Journal) (setting : Setting) (job : Job) : Context :=
  { deadline := journal.deadline, plan := some (planCheck setting job) }

/-- A fault that counts gives way to the reason for giving up, if there is one by now. -/
def classify (setting : Setting) (job : Job) (fault : Fault) : Stage Fault := do
  if !fault.countsAsFailure then return fault
  match ← Stage.act ((← get).plannedContext setting job).check with
  | some reason => return reason.fault
  | none => return fault

def classified {α : Type} (setting : Setting) (job : Job) (p : Act (Except Fault α)) :
    Stage α := do
  match ← Stage.act p with
  | .ok a => return a
  | .error fault => throw (← classify setting job fault)

def lookupShard (job : Job) : Stage Unit := do
  unless ← Stage.attempt (ask (.lookupShard job.key)) do
    throw (.collectionNotFound
      ("failed to lookup local shard " ++ job.database ++ "/" ++ job.shard))

def readInitialCounts (setting : Setting) (job : Job) (endpoint : String) : Stage Unit := do
  let onLeader : UInt64 ← Stage.attempt (ask (.leader endpoint
    (.collectionCount job.database job.shard) setting.settings.leaderCountTimeout))
  modify fun j => { j with initialLeaderCount := onLeader }
  let here ← Stage.attempt (ask .documentCount)
  modify fun j => { j with initialFollowerCount := here }

def difference (m n : UInt64) : Nat := max m.toNat n.toNat - min m.toNat n.toNat

def checkRequeue (setting : Setting) (job : Job) : Stage Unit := do
  let j ← get
  let differing := difference j.initialLeaderCount j.initialFollowerCount
  unless job.priority = .slow ∨ differing ≤ setting.settings.requeueDocDiffThreshold.toNat do
    Stage.act (ask (.upkeep (.requeue job .slow)))
    throw .requeued

/-- Only comparison by revision makes progress in bounded time, so only then is the attempt
limited. -/
def startAttemptClock (setting : Setting) (job : Job) : Stage Unit := do
  if job.syncByRevision then
    match setting.settings.attemptTimeout with
    | some limit =>
      let deadline ← Stage.act (momentAfter limit)
      modify fun j => { j with deadline := some deadline }
    | none => return

def prepare (setting : Setting) (job : Job) : Stage String := do
  Stage.enter .prepare
  lookupShard job
  let endpoint ← Stage.attempt (ask (.serverEndpoint job.leader))
  readInitialCounts setting job endpoint
  checkRequeue setting job
  startAttemptClock setting job
  Stage.act (ask (.openTailingSyncer job.database endpoint job.leader))
  Stage.unlessStopping
  return endpoint

def bulkRequest (setting : Setting) (job : Job) (endpoint : String) (here : UInt64) :
    BulkRequest where
  endpoint
  database := job.database
  leaderId := job.leader
  incremental := here ≠ 0
  restrictCollections := [job.shard]
  includeSystem := true
  skipCreateDrop := true
  clientInfo := job.clientInfo setting.server

/-- Yields the identity of the bulk syncer. Until the hard lock is held, the leader is followed
without a term. -/
def copyShard (setting : Setting) (job : Job) (endpoint : String) : Stage UInt64 := do
  Stage.enter .bulkSync
  Stage.attempt (ask (.setLeader job.leader))
  let j ← get
  Stage.act (ask (.openBulkSyncer job.database))
  let outcome ← classified setting job (ask (.bulkSync
    (bulkRequest setting job endpoint j.initialFollowerCount) (j.plannedContext setting job)))
  if outcome.processed.head? ≠ some job.shard then throw (.shardVanished job.database job.shard)
  modify fun j => { j with progress := { j.progress with lastLogTick := outcome.lastLogTick } }
  return outcome.syncerId

end FollowerSync.Attempt
