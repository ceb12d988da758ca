import FollowerSync.Document.Value
import FollowerSync.Shard.Job

set_option autoImplicit false

namespace FollowerSync
open Document

def Priority.ofDocument? : Reader Priority
  | .text name => ofName? name
  | .table [(name, .null)] => ofName? name
  | _ => none

namespace Job

def fieldNames : List String :=
  ["database", "shard", "plan_id", "leader", "forced_resync", "sync_by_revision", "priority"]

def ofDocument? (v : Value) : Option Job := do
  match ← v.fields? .exact fieldNames with
  | [database, shard, planId, leader, forcedResync, syncByRevision, priority] =>
    return {
      database := ← required Value.text? database
      shard := ← required Value.text? shard
      planId := ← required Value.text? planId
      leader := ← required Value.text? leader
      forcedResync := ← optional Value.boolean? false forcedResync
      syncByRevision := ← optional Value.boolean? false syncByRevision
      priority := ← optional Priority.ofDocument? .normal priority }
  | _ => none

end Job
end FollowerSync
