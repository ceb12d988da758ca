import FollowerSync.Attempt.Calls

set_option autoImplicit false

namespace FollowerSync.Attempt

inductive AbortReason where
  | shutdown
  | deadlineExceeded
  | noLongerPlanned
  deriving DecidableEq, Repr

namespace AbortReason

def name : AbortReason → String
  | shutdown => "Shutdown"
  | deadlineExceeded => "DeadlineExceeded"
  | noLongerPlanned => "NoLongerPlanned"

def fault : AbortReason → Fault
  | shutdown => .shuttingDown
  | deadlineExceeded => .attemptTimeout
  | noLongerPlanned => .planChanged "not planned as follower anymore"

theorem fault_not_counted (r : AbortReason) : r.fault.countsAsFailure = false := by
  cases r <;> rfl

end AbortReason

def PlanCheck.holds (check : PlanCheck) (planned : Except Fault (List String)) : Bool :=
  match planned with
  | .ok servers => Cluster.isPlannedFollower servers check.leader check.server
  | .error _ => false

namespace Context

def isStopping (_ : Context) : Act Bool := ask .stopping

def isLate (c : Context) (now : Instant) : Bool :=
  match c.deadline with
  | some deadline => deadline ≤ now
  | none => false

/-- Whether the deadline has passed; without one the clock is not looked at. -/
def checkLate (c : Context) : Act Bool :=
  match c.deadline with
  | some _ => return c.isLate (← ask .now)
  | none => return false

def checkPlan (c : Context) : Act Bool :=
  match c.plan with
  | some check => return check.holds (← ask (.plannedServers check.place))
  | none => return true

def check (c : Context) : Act (Option AbortReason) := do
  if ← c.isStopping then return some .shutdown
  if ← c.checkLate then return some .deadlineExceeded
  if ← c.checkPlan then return none
  return some .noLongerPlanned

end Context
end FollowerSync.Attempt
