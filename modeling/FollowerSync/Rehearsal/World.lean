import FollowerSync.Attempt.Context
import FollowerSync.Attempt.Guard
import FollowerSync.Cluster.View
import FollowerSync.Document.Value

/-!
# Scripted worlds

A world in which attempts can be rehearsed: a cluster, a leader, a replica and a maintenance state
of which everything is known, and a clock in milliseconds that moves only while something sleeps.
Scripts say how calls are answered, and timers when something happens by itself. Every call is
logged with its time.
-/

set_option autoImplicit false

namespace FollowerSync.Rehearsal
open Attempt Cluster

mutual

inductive Effect where
  | shutdown
  | setPlanned (place : ShardPlace) (servers : List String)
  | setCurrent (place : ShardPlace) (servers : List String)
  | setEndpoint (server endpoint : String)
  | publish (version : UInt64)
  | lock (key : ShardKey)
  | unlock (key : ShardKey)
  | recordFailures (key : ShardKey) (count : Nat)
  | clearFailures (key : ShardKey)
  | leaderCount (n : UInt64)
  | leaderScan (n : UInt64)
  | localCount (n : UInt64)
  | localScan (n : UInt64)
  | localShard (present : Bool)
  | grant (grant : Leader.LockGrant)
  | script (method : String) (cues : List Cue)

/-- How one call is answered: after a delay and some effects, a long call may look at its context,
and then it fails, or yields a given value, or goes on as if it were not scripted. -/
inductive Cue where
  | mk (delay : Nat) (effects : List Effect) (heed : Option Heed) (fault : Option Fault)
      (value : Option Document.Value)

inductive Heed where
  | asReason
  | asInternal

end

instance : Inhabited Effect := ⟨.shutdown⟩

instance : Inhabited Cue := ⟨.mk 0 [] none none none⟩

namespace Cue

def delay : Cue → Nat
  | mk delay _ _ _ _ => delay

def effects : Cue → List Effect
  | mk _ effects _ _ _ => effects

def heed : Cue → Option Heed
  | mk _ _ heed _ _ => heed

def fault : Cue → Option Fault
  | mk _ _ _ fault _ => fault

def value : Cue → Option Document.Value
  | mk _ _ _ _ value => value

end Cue

structure Timer where
  due : Nat
  effect : Effect

inductive Entry where
  | called (time : Nat) (call : Call)
  | heeded (time : Nat) (stopping late : Bool) (reason : Option AbortReason)

structure Held where
  endpoint : String
  request : Leader.LockRequest

inductive Loading where
  | scripted (cue : Cue) (due : Nat)
  | usual (wait : (Watch.counted UInt64).Wait)

structure World where
  clock : Nat := 0
  timers : List Timer := []
  stopping : Bool := false
  view : View := {}
  loading : Option Loading := none
  store : Maintenance.Store := {}
  leaderCount : UInt64 := 100
  leaderScan : Option UInt64 := none
  localCount : UInt64 := 100
  localScan : Option UInt64 := none
  localShard : Bool := true
  grant : Leader.LockGrant := { followingTermId := some 77, lastLogTick := some 5000 }
  lockIds : Nat := 0
  scripts : String → List Cue := fun _ => []
  log : List Entry := []
  held : Option Held := none
  abortAt : Option Nat := none
  broken : Option Halt := none

instance : Inhabited World := ⟨{}⟩

def Effect.apply (w : World) : Effect → World
  | shutdown => { w with stopping := true }
  | setPlanned place servers => { w with view := w.view.setPlanned place servers }
  | setCurrent place servers => { w with view := w.view.setCurrent place servers }
  | setEndpoint server endpoint => { w with view := w.view.setEndpoint server endpoint }
  | publish version => { w with view := w.view.publish version }
  | lock key => { w with store := w.store.after (.lock key) }
  | unlock key => { w with store := w.store.after (.unlock key) }
  | recordFailures key count =>
    { w with store := w.store.afterAll (List.replicate count (.recordFailure key)) }
  | clearFailures key => { w with store := w.store.after (.clearFailures key) }
  | leaderCount n => { w with leaderCount := n }
  | leaderScan n => { w with leaderScan := some n }
  | localCount n => { w with localCount := n }
  | localScan n => { w with localScan := some n }
  | localShard present => { w with localShard := present }
  | grant g => { w with grant := g }
  | script method cues =>
    { w with scripts := fun m => if m = method then w.scripts m ++ cues else w.scripts m }

namespace World

def applyAll (w : World) (effects : List Effect) : World :=
  effects.foldl (fun w e => e.apply w) w

def now (w : World) : Instant := w.clock * nanosPerMilli

/-- The server's own clock, which ran before. -/
def uptime : Nat := nanosPerSecond

def instant (w : World) : Instant := uptime + w.now

def note (w : World) (entry : Entry) : World := { w with log := entry :: w.log }

def takeLog (w : World) : List Entry × World := (w.log.reverse, { w with log := [] })

/-- Lets time pass up to a moment, or to where something holds if that comes first; whether it
does. -/
def pass (until? : World → Bool) (moment : Nat) : List Timer → World → Bool × World
  | timers, w =>
    if until? w then (true, { w with timers })
    else
      match timers with
      | [] => (false, { w with clock := moment, timers := [] })
      | timer :: later =>
        if timer.due ≤ moment then
          pass until? moment later (timer.effect.apply { w with clock := timer.due })
        else (false, { w with clock := moment, timers })

def wait (until? : World → Bool) (moment : Nat) (w : World) : World × Option Bool :=
  let aborted := w.abortAt.any (· < moment)
  match pass until? (min moment (w.abortAt.getD moment)) w.timers w with
  | (true, w) => (w, some true)
  | (false, w) => (w, if aborted then none else some false)

def sleep (millis : Nat) (w : World) : World × Option Unit :=
  let (w, passed) := w.wait (fun _ => false) (w.clock + millis)
  (w, passed.map fun _ => ())

def insertTimer (t : Timer) : List Timer → List Timer
  | [] => [t]
  | first :: later =>
    if t.due < first.due then t :: first :: later else first :: insertTimer t later

def schedule (w : World) (millis : Nat) (e : Effect) : World :=
  if millis = 0 then e.apply w
  else { w with timers := insertTimer { due := w.clock + millis, effect := e } w.timers }

def scheduleAll (w : World) (millis : Nat) (effects : List Effect) : World :=
  effects.foldl (fun w e => w.schedule millis e) w

def takeCue (w : World) (method : String) : Option Cue × World :=
  match w.scripts method with
  | [] => (none, w)
  | cue :: later =>
    (some cue,
      { w with scripts := fun m => if m = method then later else w.scripts m })

/-- The world before anything is rehearsed: the leader is planned and serves, this server is
planned as its follower, and the shard is locked for the attempt. -/
def initial : World :=
  let place : ShardPlace := ⟨"db", "99", "s100"⟩
  let view := MemoryView.setPlanned {} place ["PRMR-L", "PRMR-F"]
  let view := (view.setCurrent place ["PRMR-L"]).setEndpoint "PRMR-L" "tcp://leader:8529"
  { view := view.publish 1, store := Maintenance.Store.after {} (.lock ⟨"db", "s100"⟩) }

end World
end FollowerSync.Rehearsal
