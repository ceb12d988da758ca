import FollowerSync.Attempt.Run
import FollowerSync.Rehearsal.Answers

set_option autoImplicit false

namespace FollowerSync.Rehearsal
open Attempt

def World.abandon (w : World) (endpoint : String) (request : Leader.Request) (limit : Duration) :
    World :=
  let c := Call.leader endpoint request limit
  match (logged c w).takeCue ((method? c).getD "") with
  | (none, w) => w
  | (some cue, w) => w.scheduleAll cue.delay cue.effects

/-- Has a program that makes one call to a leader, if any, go on in the background. -/
def World.spawn (w : World) : Act Unit → World
  | .call (.leader endpoint request limit) _ => w.abandon endpoint request limit
  | _ => w

def World.abandonHeld (w : World) (limit : Duration) : World :=
  match w.held with
  | none => w
  | some held =>
    let r := held.request
    World.abandon { w with held := none } held.endpoint
      (.cancelLock r.database r.lockId r.clientId) limit

inductive Outcome where
  | reported (report : Report)
  | dropped
  | broken (reason : Halt)

def World.runAttempt (w : World) (setting : Setting) (job : Job) (abortAfter : Option Nat) :
    World × Outcome :=
  let abortAt := abortAfter.map (w.clock + ·)
  match World.play { w with abortAt, broken := none, held := none } (Attempt.run setting job) with
  | (w, some report) => ({ w with abortAt := none }, .reported report)
  | (w, none) =>
    match w.broken with
    | some reason => ({ w with abortAt := none }, .broken reason)
    | none =>
      (World.abandonHeld { w with abortAt := none } setting.settings.cancelLockTimeout, .dropped)

def World.runAll (setting : Setting) : List Job → World → World × List (Job × Outcome)
  | [], w => (w, [])
  | job :: jobs, w =>
    let (w, outcome) := w.runAttempt setting job none
    let (w, later) := runAll setting jobs w
    (w, (job, outcome) :: later)

inductive Step where
  | run (job : Job) (abortAfter : Option Nat)
  | runRequeued
  | apply (effects : List Effect)
  | schedule (millis : Nat) (effects : List Effect)
  | sleep (millis : Nat)

inductive Result where
  | attempt (job : Job) (outcome : Outcome)
  | attempts (outcomes : List (Job × Outcome))
  | nothing

def World.perform (w : World) (setting : Setting) : Step → World × Result
  | .run job abortAfter =>
    let (w, outcome) := w.runAttempt setting job abortAfter
    (w, .attempt job outcome)
  | .runRequeued =>
    let (jobs, store) := w.store.perform .takeRequeued
    let (w, outcomes) := World.runAll setting jobs { w with store }
    (w, .attempts outcomes)
  | .apply effects => (w.applyAll effects, .nothing)
  | .schedule millis effects => (w.scheduleAll millis effects, .nothing)
  | .sleep millis => ((w.sleep millis).1, .nothing)

end FollowerSync.Rehearsal
