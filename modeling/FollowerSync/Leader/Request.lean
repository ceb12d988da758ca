import FollowerSync.Fault
import FollowerSync.Leader.Lock

set_option autoImplicit false

namespace FollowerSync.Leader

inductive Request where
  | newLockId (database : String)
  | acquireLock (request : LockRequest)
  | cancelLock (database : String) (lockId : UInt64) (clientId : String)
  | addFollower (request : AddFollowerRequest)
  | collectionCount (database shard : String)
  | recalculateCount (database shard : String)
  deriving DecidableEq

namespace Request

def name : Request → String
  | newLockId _ => "NewLockId"
  | acquireLock _ => "AcquireLock"
  | cancelLock .. => "CancelLock"
  | addFollower _ => "AddFollower"
  | collectionCount .. => "CollectionCount"
  | recalculateCount .. => "RecalculateCount"

@[reducible] def Payload : Request → Type
  | newLockId _ => UInt64
  | acquireLock _ => LockGrant
  | cancelLock .. | addFollower _ => Unit
  | collectionCount .. | recalculateCount .. => UInt64

end Request

inductive Response where
  | lockId (id : UInt64)
  | lockGranted (grant : LockGrant)
  | ok
  | count (count : UInt64)
  | error (code : Code) (reason : String)
  deriving DecidableEq

namespace Response

def optionText : Option UInt64 → String
  | none => "None"
  | some n => "Some(" ++ toString n.toNat ++ ")"

def text : Response → String
  | lockId id => "LockId \x7b id: " ++ toString id.toNat ++ " \x7d"
  | lockGranted grant =>
    "LockGranted \x7b grant: LockGrant \x7b following_term_id: " ++
      optionText grant.followingTermId ++ ", last_log_tick: " ++
      optionText grant.lastLogTick ++ " \x7d \x7d"
  | ok => "Ok"
  | count n => "Count \x7b count: " ++ toString n.toNat ++ " \x7d"
  | error code reason => "Error \x7b code: " ++ code.name ++ ", message: " ++ reason ++ " \x7d"

/-- A fault that the leader answers with keeps its code. -/
def accept : Response → Except Fault Response
  | error .wrongChecksum reason => .error (.checksumMismatch reason)
  | error code reason => .error (.rpc code reason)
  | response => .ok response

end Response
end FollowerSync.Leader
