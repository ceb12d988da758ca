import FollowerSync.Attempt.Closing
import FollowerSync.Attempt.Following
import FollowerSync.Attempt.Waiting

set_option autoImplicit false

namespace FollowerSync.Attempt

inductive State where
  | running
  | complete
  | failed
  deriving DecidableEq, Repr

def State.text : State → String
  | running => "RUNNING"
  | complete => "COMPLETE"
  | failed => "FAILED"

structure Report where
  state : State
  fault : Option Fault
  message : String
  initialLeaderCount : UInt64
  initialFollowerCount : UInt64
  docCountAtEnd : UInt64
  term : FollowingTerm
  progress : Progress
  elapsed : Duration
  deriving DecidableEq

namespace Report

def isComplete (r : Report) : Bool := r.state = .complete

def isRequeued (r : Report) : Bool := r.fault = some .requeued

end Report

def synchronize (setting : Setting) (job : Job) : Stage Unit := do
  Stage.enter .backoff
  Stage.attempt (delayAfterFailures setting job)
  Stage.enter .waitForLeader
  Stage.attempt (waitForLeader setting job setting.patience)
  let endpoint ← prepare setting job
  let syncerId ← copyShard setting job endpoint
  catchUpSoftly setting job endpoint
  Stage.unlessStopping
  catchUpHard setting job endpoint syncerId

def work (setting : Setting) (job : Job) : Stage Unit := do
  Stage.attempt (return job.validate)
  synchronize setting job

def message (job : Job) (phase : Phase) : Option Fault → String
  | none => "synchronization done, " ++ shardInfo job
  | some fault => phase.text ++ " failed: " ++ fault.message ++ ", " ++ shardInfo job

def faultOf : Except Fault Unit → Option Fault
  | .ok () => none
  | .error fault => some fault

def report (job : Job) (journal : Journal) (fault : Option Fault) (elapsed : Duration) :
    Report where
  state := if fault.isNone then .complete else .failed
  fault
  message := message job journal.phase fault
  initialLeaderCount := journal.initialLeaderCount
  initialFollowerCount := journal.initialFollowerCount
  docCountAtEnd := journal.docCountAtEnd
  term := journal.term
  progress := journal.progress
  elapsed

def run (setting : Setting) (job : Job) : Act Report := do
  let began ← ask .now
  let (result, journal) ← (work setting job).run.run {}
  let fault := faultOf result
  close setting job fault
  let ended ← ask .now
  return report job journal fault (.ofNanos (ended - began))

end FollowerSync.Attempt
