import FollowerSync.Attempt.Calls

/-!
# Locks held on the leader

A guard stands for a lock that is held on the leader until the guard is released. A guard that goes
without having been released cancels its lock in the background. A lock request that fails after it
may have reached the leader is cancelled right away, since the lock may have been granted.
-/

set_option autoImplicit false

namespace FollowerSync.Attempt
open Leader

structure Guard where
  endpoint : String
  database : String
  clientId : String
  lockId : UInt64
  grant : LockGrant
  cancelTimeout : Duration
  armed : Bool := true
  deriving DecidableEq

namespace Guard

def cancelCall (endpoint : String) (request : LockRequest) (limit : Duration) : Act Unit := do
  let _ ← ask (.leader endpoint (.cancelLock request.database request.lockId request.clientId)
    limit)

def acquire (endpoint : String) (request : LockRequest) (limit cancelTimeout : Duration) :
    Act (Except Fault Guard) := do
  match ← ask (.leader endpoint (.newLockId request.database) limit) with
  | .error fault => return .error fault
  | .ok lockId =>
    let request := { request with lockId }
    match ← ask (.leader endpoint (.acquireLock request) limit) with
    | .ok grant =>
      return .ok { endpoint, database := request.database, clientId := request.clientId, lockId
                   grant, cancelTimeout }
    | .error fault =>
      unless fault.isConnectFailure do
        cancelCall endpoint request cancelTimeout
      return .error fault

/-- What the answer to a cancellation means. With its database a lock is gone too. -/
def released : Except Fault Unit → Except Fault Unit
  | .ok () => .ok ()
  | .error fault =>
    if fault.code = .databaseNotFound then .ok () else .error (.lockRelease fault.message)

def cancel (g : Guard) : Act (Except Fault Unit) :=
  return released (← ask (.leader g.endpoint (.cancelLock g.database g.lockId g.clientId)
    g.cancelTimeout))

/-- What the end of a guard's life brings about. Where nothing can go on in the background, the
lock is left to its time to live. -/
def drop (g : Guard) (inRuntime : Bool) : Act Unit :=
  if g.armed && inRuntime then do
    let _ ← g.cancel
  else return

/-- A guard is disarmed before its lock is cancelled, and is then dropped. -/
def release (g : Guard) : Act (Except Fault Unit) := do
  let g := { g with armed := false }
  let result ← g.cancel
  g.drop true
  return result

def releaseQuietly (g : Guard) : Act Unit := do
  let _ ← g.release

end Guard
end FollowerSync.Attempt
