import FollowerSync.Cluster.Plan
import FollowerSync.Duration
import FollowerSync.Leader.Request
import FollowerSync.Maintenance.Store
import FollowerSync.Program

/-!
# What an attempt asks of its surroundings

An attempt reads the cluster's plan, asks the leader for locks and counts, has the local replica
copied and the leader's log followed, keeps the maintenance state, and looks at the clock and at
whether the server is stopping. Long calls on the replica get a context by which they can tell
whether to give up.
-/

set_option autoImplicit false

namespace FollowerSync.Attempt

structure PlanCheck where
  place : ShardPlace
  leader : String
  server : String
  deriving DecidableEq

/-- When a long call has to give up, besides when the server stops. -/
structure Context where
  deadline : Option Instant := none
  plan : Option PlanCheck := none
  deriving DecidableEq

structure BulkRequest where
  endpoint : String
  database : String
  leaderId : String
  /-- Compare with what is there instead of copying everything. -/
  incremental : Bool
  restrictCollections : List String
  includeSystem : Bool
  skipCreateDrop : Bool
  clientInfo : String
  deriving DecidableEq

structure BulkOutcome where
  syncerId : UInt64
  lastLogTick : Tick
  processed : List String
  deriving DecidableEq

structure CatchUpOutcome where
  tickReached : Tick
  /-- The budget was used up before the end of the log. -/
  timedOut : Bool
  deriving DecidableEq

inductive Halt where
  | outOfRange
  /-- A wait went on for longer than is followed. -/
  | outOfPatience
  deriving DecidableEq

/-- What wakes a task that is suspended. -/
inductive Waker where
  /-- The cluster's wait for a version may have come to its end. -/
  | loading
  | due (moment : Instant)
  | stopping
  deriving DecidableEq

inductive Call where
  | plannedServers (place : ShardPlace)
  | currentServers (place : ShardPlace)
  | serverEndpoint (server : String)
  | fetchVersion (limit : Duration)
  /-- Polls the cluster's wait for a version, which begins with the first poll. -/
  | awaitVersion (version : UInt64) (polls : Nat)
  | leader (endpoint : String) (request : Leader.Request) (limit : Duration)
  | lookupShard (key : ShardKey)
  | documentCount
  | recountDocuments
  | setLeader (leaderId : String)
  | openBulkSyncer (database : String)
  | openTailingSyncer (database endpoint leaderId : String)
  /-- From now on the tailing syncer accepts operations under this identifier. -/
  | followLeader (leaderId : String)
  | bulkSync (request : BulkRequest) (context : Context)
  | catchUp (collection : String) (start : Tick) (budget : Duration) (context : Context)
  | finalize (collection : String) (start : Tick) (upperBound : Option Tick) (context : Context)
  | upkeep (op : Maintenance.Operation)
  | stopping
  | now
  | sleep (d : Duration)
  | suspend (wakers : List Waker)
  | draw
  | halt (reason : Halt)

@[reducible] def Call.Reply : Call → Type
  | plannedServers _ | currentServers _ => Except Fault (List String)
  | serverEndpoint _ => Except Fault String
  | fetchVersion _ => Except Fault UInt64
  | awaitVersion .. => Option (Except Fault Unit)
  | leader _ request _ => Except Fault request.Payload
  | lookupShard _ => Except Fault Bool
  | documentCount | recountDocuments => Except Fault UInt64
  | setLeader _ => Except Fault Unit
  | openBulkSyncer _ | openTailingSyncer .. | followLeader _ => Unit
  | bulkSync .. => Except Fault BulkOutcome
  | catchUp .. => Except Fault CatchUpOutcome
  | finalize .. => Except Fault Unit
  | upkeep op => op.Answer
  | stopping | draw => Bool
  | now => Instant
  | sleep _ | suspend _ => Unit
  | halt _ => Empty

@[reducible] def surroundings : Signature := ⟨Call, Call.Reply⟩

abbrev Act := Program surroundings

def ask (c : Call) : Act c.Reply := Program.ask (S := surroundings) c

def stop {α : Type} (reason : Halt) : Act α :=
  Program.call (S := surroundings) (Call.halt reason) fun r => nomatch r

end FollowerSync.Attempt
