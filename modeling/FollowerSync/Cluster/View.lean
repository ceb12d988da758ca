import FollowerSync.Cluster.Watch
import FollowerSync.Fault
import FollowerSync.Shard.Job

set_option autoImplicit false

namespace FollowerSync.Cluster

structure MemoryView (W : Watch UInt64) where
  planned : ShardPlace → Option (List String) := fun _ => none
  current : ShardPlace → List String := fun _ => []
  endpoints : String → Option String := fun _ => none
  version : UInt64 := 0
  /-- The version that a wait looks at. -/
  loaded : W.Channel := W.create 0

abbrev View := MemoryView (Watch.counted UInt64)

inductive Turn where
  | published (version : UInt64)
  /-- The task is polled, though no version may have been published. -/
  | polled
  deriving DecidableEq

/-- What happens, each with the time that passes before it. -/
abbrev Timeline := List (Nat × Turn)

namespace MemoryView
variable {W : Watch UInt64}

instance : Inhabited (MemoryView W) := ⟨{}⟩

def setPlanned (v : MemoryView W) (place : ShardPlace) (servers : List String) : MemoryView W :=
  { v with planned := fun p => if p = place then some servers else v.planned p }

def setCurrent (v : MemoryView W) (place : ShardPlace) (servers : List String) : MemoryView W :=
  { v with current := fun p => if p = place then servers else v.current p }

def setEndpoint (v : MemoryView W) (server endpoint : String) : MemoryView W :=
  { v with endpoints := fun s => if s = server then some endpoint else v.endpoints s }

def publish (v : MemoryView W) (version : UInt64) : MemoryView W :=
  { v with version, loaded := W.sendReplace v.loaded version }

def plannedServers (v : MemoryView W) (place : ShardPlace) : Except Fault (List String) :=
  match v.planned place with
  | some servers => .ok servers
  | none => .error (.collectionNotFound (place.database ++ "/" ++ place.shard ++ " not in plan"))

def serverEndpoint (v : MemoryView W) (server : String) : Except Fault String :=
  match v.endpoints server with
  | some endpoint => .ok endpoint
  | none => .error (.internal ("no endpoint known for server " ++ server))

def beginWait (v : MemoryView W) (wanted : UInt64) : W.Wait :=
  W.waitFor v.loaded fun loaded => wanted ≤ loaded

def pollWait (v : MemoryView W) (x : W.Wait) : Option (Except Fault Unit) × W.Wait :=
  match W.poll v.loaded x with
  | (some (.ok _), x) => (some (.ok ()), x)
  | (some (.error _), x) => (some (.error (.internal "current version channel closed")), x)
  | (none, x) => (none, x)

def after (v : MemoryView W) : Turn → MemoryView W
  | .published version => v.publish version
  | .polled => v

/-- The task of a wait is polled when it is woken, and maybe at other times. Yields when the wait
ends and with what, none if it goes on, and the view by then. -/
def resume (v : MemoryView W) (x : W.Wait) :
    Timeline → Nat → Option (Nat × Except Fault Unit) × MemoryView W
  | [], _ => (none, v)
  | (pause, turn) :: later, waited =>
    let v := v.after turn
    if turn = .polled ∨ W.wakes v.loaded x then
      match v.pollWait x with
      | (some answer, _) => (some (waited + pause, answer), v)
      | (none, x) => v.resume x later (waited + pause)
    else v.resume x later (waited + pause)

def waitForVersion (v : MemoryView W) (wanted : UInt64) (later : Timeline) :
    Option (Nat × Except Fault Unit) × MemoryView W :=
  match v.pollWait (v.beginWait wanted) with
  | (some answer, _) => (some (0, answer), v)
  | (none, x) => v.resume x later 0

end MemoryView
end FollowerSync.Cluster
