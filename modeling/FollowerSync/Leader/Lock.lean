import FollowerSync.Duration
import FollowerSync.Shard.Progress

set_option autoImplicit false

namespace FollowerSync.Leader

inductive LockMode where
  | soft
  | hard
  deriving DecidableEq, Repr, Inhabited

namespace LockMode

def name : LockMode → String
  | soft => "Soft"
  | hard => "Hard"

def text : LockMode → String
  | soft => "soft"
  | hard => "hard"

def ofName? (s : String) : Option LockMode := [soft, hard].find? (·.name = s)

end LockMode

structure LockRequest where
  database : String
  lockId : UInt64
  collection : String
  ttl : Duration
  serverId : String
  clientId : String
  rebootId : UInt64
  mode : LockMode
  wantFollowingTerm : Bool
  deriving DecidableEq

/-- Both parts come with hard locks only, and not from every leader. -/
structure LockGrant where
  followingTermId : Option UInt64 := none
  lastLogTick : Option Tick := none
  deriving DecidableEq, Repr, Inhabited

def LockGrant.term (g : LockGrant) : FollowingTerm := ⟨g.followingTermId.getD 0⟩

structure AddFollowerRequest where
  database : String
  followerId : String
  shard : String
  checksum : UInt64
  syncerId : UInt64
  clientId : String
  clientInfo : String
  /-- Proves that the caller holds the hard lock. -/
  lockId : UInt64
  deriving DecidableEq

end FollowerSync.Leader
