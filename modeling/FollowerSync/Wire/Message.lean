import FollowerSync.Leader.Request
import FollowerSync.Wire.Codec

set_option autoImplicit false

namespace FollowerSync.Wire
open Leader

instance : Encodable Code where
  encode code := encodeIndex (Code.all.idxOf code)
  decode := return Code.all.getD (← takeIndex Code.all.length) .failed

instance : Encodable LockMode where
  encode
    | .soft => encodeIndex 0
    | .hard => encodeIndex 1
  decode := return if (← takeIndex 2) = 0 then .soft else .hard

instance : Encodable LockRequest where
  encode r :=
    encode r.database ++ encode r.lockId ++ encode r.collection ++ encode r.ttl ++
      encode r.serverId ++ encode r.clientId ++ encode r.rebootId ++ encode r.mode ++
      encode r.wantFollowingTerm
  decode := do
    let database ← decode
    let lockId ← decode
    let collection ← decode
    let ttl ← decode
    let serverId ← decode
    let clientId ← decode
    let rebootId ← decode
    let mode ← decode
    let wantFollowingTerm ← decode
    return { database, lockId, collection, ttl, serverId, clientId, rebootId, mode,
             wantFollowingTerm }

instance : Encodable LockGrant where
  encode g := encode g.followingTermId ++ encode g.lastLogTick
  decode := do
    let followingTermId ← decode
    let lastLogTick ← decode
    return { followingTermId, lastLogTick }

instance : Encodable AddFollowerRequest where
  encode r :=
    encode r.database ++ encode r.followerId ++ encode r.shard ++ encode r.checksum ++
      encode r.syncerId ++ encode r.clientId ++ encode r.clientInfo ++ encode r.lockId
  decode := do
    let database ← decode
    let followerId ← decode
    let shard ← decode
    let checksum ← decode
    let syncerId ← decode
    let clientId ← decode
    let clientInfo ← decode
    let lockId ← decode
    return { database, followerId, shard, checksum, syncerId, clientId, clientInfo, lockId }

instance : Encodable Request where
  encode
    | .newLockId database => encodeIndex 0 ++ encode database
    | .acquireLock request => encodeIndex 1 ++ encode request
    | .cancelLock database lockId clientId =>
      encodeIndex 2 ++ encode database ++ encode lockId ++ encode clientId
    | .addFollower request => encodeIndex 3 ++ encode request
    | .collectionCount database shard => encodeIndex 4 ++ encode database ++ encode shard
    | .recalculateCount database shard => encodeIndex 5 ++ encode database ++ encode shard
  decode := do
    match ← takeIndex 6 with
    | 0 => return .newLockId (← decode)
    | 1 => return .acquireLock (← decode)
    | 2 => return .cancelLock (← decode) (← decode) (← decode)
    | 3 => return .addFollower (← decode)
    | 4 => return .collectionCount (← decode) (← decode)
    | _ => return .recalculateCount (← decode) (← decode)

instance : Encodable Response where
  encode
    | .lockId id => encodeIndex 0 ++ encode id
    | .lockGranted grant => encodeIndex 1 ++ encode grant
    | .ok => encodeIndex 2
    | .count count => encodeIndex 3 ++ encode count
    | .error code reason => encodeIndex 4 ++ encode code ++ encode reason
  decode := do
    match ← takeIndex 5 with
    | 0 => return .lockId (← decode)
    | 1 => return .lockGranted (← decode)
    | 2 => return .ok
    | 3 => return .count (← decode)
    | _ => return .error (← decode) (← decode)

end FollowerSync.Wire
