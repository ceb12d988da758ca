import FollowerSync.Rehearsal.Steps

set_option autoImplicit false

namespace FollowerSync.Rehearsal
open Attempt

structure Bench where
  world : World
  guards : List (String × Guard) := []

inductive GuardStep where
  | acquire (name endpoint : String) (request : Leader.LockRequest) (limit cancelTimeout : Duration)
  | release (name : String)
  | releaseQuietly (name : String)
  | drop (name : String)
  | sleep (millis : Nat)
  | apply (effects : List Effect)

inductive GuardResult where
  | acquired (g : Guard)
  | failed (fault : Fault)
  | released
  | missing
  | dropped (present : Bool)
  | nothing

namespace Bench

def find? (b : Bench) (name : String) : Option Guard := b.guards.lookup name

def without (b : Bench) (name : String) : List (String × Guard) :=
  b.guards.filter (·.1 ≠ name)

def drop (b : Bench) (name : String) : Bench :=
  match b.find? name with
  | none => b
  | some g => { world := b.world.spawn (g.drop true), guards := b.without name }

def settle (b : Bench) (p : Act (Except Fault Unit)) : Bench × GuardResult :=
  match b.world.play p with
  | (world, some (.ok ())) => ({ b with world }, .released)
  | (world, some (.error fault)) => ({ b with world }, .failed fault)
  | (world, none) => ({ b with world }, .nothing)

def perform (b : Bench) : GuardStep → Bench × GuardResult
  | .acquire name endpoint request limit cancelTimeout =>
    match b.world.play (Guard.acquire endpoint request limit cancelTimeout) with
    | (world, some (.ok g)) =>
      let b := Bench.drop { b with world } name
      ({ b with guards := b.guards ++ [(name, g)] }, .acquired g)
    | (world, some (.error fault)) => ({ b with world }, .failed fault)
    | (world, none) => ({ b with world }, .nothing)
  | .release name =>
    match b.find? name with
    | none => (b, .missing)
    | some g => settle { b with guards := b.without name } g.release
  | .releaseQuietly name =>
    match b.find? name with
    | none => (b, .missing)
    | some g =>
      settle { b with guards := b.without name } (g.releaseQuietly.bind fun _ => .done (.ok ()))
  | .drop name => (b.drop name, .dropped (b.find? name).isSome)
  | .sleep millis => ({ b with world := (b.world.sleep millis).1 }, .nothing)
  | .apply effects => ({ b with world := b.world.applyAll effects }, .nothing)

end Bench

structure Sight where
  stopping : Bool
  late : Bool
  reason : Option AbortReason
  again : Option AbortReason

/-- Looks at a context whose deadline counts from the beginning. -/
def World.examine (w : World) (context : Context) : World × Sight :=
  let context := { context with deadline := context.deadline.map (World.uptime + ·) }
  let (stopping, late) := (w.stopping, context.isLate w.instant)
  let (w, reason) := w.play context.check
  let (w, again) := w.play context.check
  (w, { stopping, late, reason := reason.getD none, again := again.getD none })

def rehearseSleep (total step : Duration) (stopAfter : Option Nat) :
    World × Option (Except Fault Unit) :=
  let w : World := match stopAfter with
    | none => {}
    | some 0 => { stopping := true }
    | some millis => World.schedule {} millis .shutdown
  w.play (sleepUnlessStopping total step)

end FollowerSync.Rehearsal

namespace FollowerSync.Cluster.MemoryView
variable {W : Watch UInt64}

def within : Nat → List (Nat × UInt64) → Timeline
  | _, [] => []
  | limit, (pause, version) :: later =>
    if pause ≤ limit then (pause, .published version) :: within (limit - pause) later else []

/-- Waits for a version while versions are published, and gives the wait up at a limit. Yields the
moment at which it ended, if it did, and the view by then. -/
def awaitVersion (v : MemoryView W) (wanted : UInt64) (limit : Nat) (upcoming : List (Nat × UInt64))
    (began : Nat) : Option Nat × MemoryView W :=
  let (ended, v) := v.waitForVersion wanted (within limit upcoming)
  (ended.map fun (moment, _) => began + moment, v)

end FollowerSync.Cluster.MemoryView
