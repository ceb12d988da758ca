import FollowerSync.Rehearsal.World

set_option autoImplicit false

namespace FollowerSync.Rehearsal
open Attempt Cluster Document

/-- The method under which cues for a call are scripted. Calls without one are not logged. -/
def method? : Call → Option String
  | .plannedServers _ => some "planned_servers"
  | .currentServers _ => some "current_servers"
  | .serverEndpoint _ => some "server_endpoint"
  | .fetchVersion _ => some "fetch_current_version"
  | .awaitVersion .. => some "wait_for_current_version"
  | .leader _ (.newLockId _) _ => some "new_lock_id"
  | .leader _ (.acquireLock request) _ => some ("acquire_" ++ request.mode.text)
  | .leader _ (.cancelLock ..) _ => some "cancel_lock"
  | .leader _ (.addFollower _) _ => some "add_follower"
  | .leader _ (.collectionCount ..) _ => some "collection_count"
  | .leader _ (.recalculateCount ..) _ => some "recalculate_count"
  | .lookupShard _ => some "lookup_shard"
  | .documentCount => some "document_count"
  | .recountDocuments => some "recount_documents"
  | .setLeader _ => some "set_leader"
  | .openBulkSyncer _ => some "bulk_syncer"
  | .openTailingSyncer .. => some "tailing_syncer"
  | .followLeader _ => some "tailing_leader"
  | .bulkSync .. => some "bulk_run"
  | .catchUp .. => some "catch_up"
  | .finalize .. => some "finalize"
  | .upkeep _ | .stopping | .now | .sleep _ | .suspend _ | .draw | .halt _ => none

abbrev Answering (α : Type) := World → World × Option α

structure Course (α : Type) where
  given : Value → World → World × Except Fault α
  usual : World → World × Except Fault α

def millis (d : Duration) : Nat := (d.nanos + nanosPerMilli - 1) / nanosPerMilli

def logged (c : Call) (w : World) : World := w.note (.called w.clock c)

def nextCue (c : Call) : Answering (Option Cue) := fun w =>
  match (logged c w).takeCue ((method? c).getD "") with
  | (none, w) => (w, some none)
  | (some cue, w) =>
    match w.sleep cue.delay with
    | (w, none) => (w, none)
    | (w, some ()) => (w.applyAll cue.effects, some (some cue))

def follow {α : Type} (course : Course α) (cue : Option Cue) (w : World) :
    World × Except Fault α :=
  match cue with
  | none => course.usual w
  | some cue =>
    match cue.fault, cue.value with
    | some fault, _ => (w, .error fault)
    | none, some v => course.given v w
    | none, none => course.usual w

def respond {α : Type} (c : Call) (course : Course α) : Answering (Except Fault α) := fun w =>
  match nextCue c w with
  | (w, none) => (w, none)
  | (w, some cue) =>
    let (w, answer) := follow course cue w
    (w, some answer)

def steady {α : Type} (read : Reader α) (usual : World → Except Fault α) : Course α where
  given v w := (w, match read v with
    | some a => .ok a
    | none => usual w)
  usual w := (w, usual w)

def fixed {α : Type} (usual : World → Except Fault α) : Course α where
  given _ w := (w, usual w)
  usual w := (w, usual w)

def anything : Reader Unit := fun _ => some ()

def texts? : Reader (List String)
  | .list items => items.mapM Value.text?
  | _ => none

def grant? (v : Value) : Option Leader.LockGrant := do
  match ← v.fields? .surplus ["following_term_id", "last_log_tick"] with
  | [term, tick] =>
    return { followingTermId := term.bind Value.uint64?, lastLogTick := tick.bind Value.uint64? }
  | _ => none

def bulkOutcome? (usual : BulkOutcome) (v : Value) : Option BulkOutcome := do
  match ← v.fields? .surplus ["syncer_id", "last_log_tick", "processed"] with
  | [syncerId, tick, processed] =>
    return { syncerId := (syncerId.bind Value.uint64?).getD usual.syncerId
             lastLogTick := (tick.bind Value.uint64?).getD usual.lastLogTick
             processed := (processed.bind texts?).getD usual.processed }
  | _ => none

def catchUpOutcome? (usual : CatchUpOutcome) (v : Value) : Option CatchUpOutcome := do
  match ← v.fields? .surplus ["tick", "timed_out"] with
  | [tick, timedOut] =>
    return { tickReached := (tick.bind Value.uint64?).getD usual.tickReached
             timedOut := (timedOut.bind Value.boolean?).getD usual.timedOut }
  | _ => none

def recount (keep : World → UInt64 → World) (scan count : World → UInt64) : Course UInt64 where
  given v w :=
    let w := match v.uint64? with
      | some n => keep w n
      | none => w
    (w, .ok (count w))
  usual w :=
    let w := keep w (scan w)
    (w, .ok (count w))

def lockIdCourse : Course UInt64 where
  given v w :=
    let w := { w with lockIds := w.lockIds + 1 }
    (w, .ok (v.uint64?.getD (.ofNat (99 + w.lockIds))))
  usual w :=
    let w := { w with lockIds := w.lockIds + 1 }
    (w, .ok (.ofNat (99 + w.lockIds)))

def holding (endpoint : String) (request : Leader.LockRequest) (course : Course Leader.LockGrant) :
    Course Leader.LockGrant :=
  let hold : World × Except Fault Leader.LockGrant → World × Except Fault Leader.LockGrant
    | (w, .ok g) => ({ w with held := some { endpoint, request } }, .ok g)
    | r => r
  { given := fun v w => hold (course.given v w), usual := fun w => hold (course.usual w) }

def registration (checksum : UInt64) (w : World) : Except Fault Unit :=
  if checksum = w.leaderCount then .ok ()
  else .error (.checksumMismatch ("leader has " ++ toString w.leaderCount.toNat ++
    " documents, follower " ++ toString checksum.toNat))

def letGo : Leader.Request → World → World
  | .cancelLock .., w => { w with held := none }
  | _, w => w

def leaderCourse (endpoint : String) : (request : Leader.Request) → Course request.Payload
  | .newLockId _ => lockIdCourse
  | .acquireLock request =>
    holding endpoint request (steady grant? fun w =>
      .ok (match request.mode with
        | .soft => {}
        | .hard => w.grant))
  | .cancelLock .. => fixed fun _ => .ok ()
  | .addFollower request => steady anything (registration request.checksum)
  | .collectionCount .. => steady Value.uint64? fun w => .ok w.leaderCount
  | .recalculateCount .. =>
    recount (fun w n => { w with leaderCount := n }) (fun w => w.leaderScan.getD w.leaderCount)
      World.leaderCount

def usualBulk (request : BulkRequest) : BulkOutcome :=
  { syncerId := 4242, lastLogTick := 1000, processed := request.restrictCollections }

def usualCatchUp (start : Tick) : CatchUpOutcome :=
  { tickReached := .ofNat (min (start.toNat + 10) (UInt64.size - 1)), timedOut := false }

def pollView (x : (Watch.counted UInt64).Wait) (w : World) : World × Option (Except Fault Unit) :=
  let (answer, x) := w.view.pollWait x
  ({ w with loading := some (.usual x) }, answer)

/-- A wait that the script does not fail or end is the view's own. -/
def pollVersion (version : UInt64) (w : World) : World × Option (Except Fault Unit) :=
  match w.loading with
  | none => pollView (w.view.beginWait version) w
  | some (.usual x) => pollView x w
  | some (.scripted cue due) =>
    if w.clock < due then (w, none)
    else
      let w := w.applyAll cue.effects
      match cue.fault, cue.value with
      | some fault, _ => (w, some (.error fault))
      | none, some _ => (w, some (.ok ()))
      | none, none => pollView (w.view.beginWait version) w

/-- The first poll of a wait for a version is logged and takes the next cue. -/
def awaitVersion (c : Call) (version : UInt64) (polls : Nat) :
    Answering (Option (Except Fault Unit)) := fun w =>
  let w := if polls = 0 then
      let (cue, w) := (logged c w).takeCue ((method? c).getD "")
      { w with loading := cue.map fun cue => .scripted cue (w.clock + cue.delay) }
    else w
  let (w, answer) := pollVersion version w
  (w, some answer)

def wakes (w : World) : Waker → Bool
  | .stopping => w.stopping
  | .loading => w.loading.any fun
    | .usual x => (Watch.counted UInt64).wakes w.view.loaded x
    | .scripted .. => false
  | .due _ => false

def wakesAt (w : World) : Waker → Option Nat
  | .due moment => some (millis (.ofNanos (moment - World.uptime)))
  | .loading => w.loading.bind fun
    | .usual _ => none
    | .scripted _ due => some due
  | .stopping => none

def suspend (wakers : List Waker) : Answering Unit := fun w =>
  let (w, woken) := w.wait (fun w => wakers.any (wakes w))
    ((wakers.filterMap (wakesAt w)).min?.getD w.clock)
  (w, woken.map fun _ => ())

def opened (c : Call) : Answering Unit := fun w => (logged c w, some ())

def answerShort : (c : Call) → Answering c.Reply
  | .plannedServers place =>
    respond (.plannedServers place) (steady texts? fun w => w.view.plannedServers place)
  | .currentServers place =>
    respond (.currentServers place) (steady texts? fun w => .ok (w.view.current place))
  | .serverEndpoint server =>
    respond (.serverEndpoint server) (steady Value.text? fun w => w.view.serverEndpoint server)
  | .fetchVersion limit =>
    respond (.fetchVersion limit) (steady Value.uint64? fun w => .ok w.view.version)
  | .awaitVersion version polls => awaitVersion (.awaitVersion version polls) version polls
  | .leader endpoint request limit => fun w =>
    respond (.leader endpoint request limit) (leaderCourse endpoint request) (letGo request w)
  | .lookupShard key =>
    respond (.lookupShard key) (fixed fun w => .ok w.localShard)
  | .documentCount => respond .documentCount (steady Value.uint64? fun w => .ok w.localCount)
  | .recountDocuments =>
    respond .recountDocuments (recount (fun w n => { w with localCount := n })
      (fun w => w.localScan.getD w.localCount) World.localCount)
  | .setLeader leaderId => respond (.setLeader leaderId) (fixed fun _ => .ok ())
  | .openBulkSyncer database => opened (.openBulkSyncer database)
  | .openTailingSyncer database endpoint leaderId =>
    opened (.openTailingSyncer database endpoint leaderId)
  | .followLeader leaderId => opened (.followLeader leaderId)
  | .bulkSync .. | .catchUp .. | .finalize .. => fun w => (w, none)
  | .upkeep op => fun w =>
    let (answer, store) := w.store.perform op
    ({ w with store }, some answer)
  | .stopping => fun w => (w, some w.stopping)
  | .now => fun w => (w, some w.instant)
  | .sleep d => fun w => w.sleep (millis d)
  | .suspend wakers => suspend wakers
  | .draw => fun w => (w, some true)
  | .halt reason => fun w => ({ w with broken := some reason }, none)

def heedFault : Heed → AbortReason → Fault
  | .asReason, reason => reason.fault
  | .asInternal, reason => .internal ("sync aborted: " ++ reason.name)

def heed (context : Context) (use : Heed) : Answering (Option Fault) := fun w =>
  let stopping := w.stopping
  let late := context.isLate w.instant
  match context.check.play answerShort w with
  | (w, none) => (w, none)
  | (w, some reason) =>
    (w.note (.heeded w.clock stopping late reason), some (reason.map (heedFault use)))

def respondLong {α : Type} (c : Call) (context : Context) (course : Course α) :
    Answering (Except Fault α) := fun w =>
  match nextCue c w with
  | (w, none) => (w, none)
  | (w, some cue) =>
    let finish (w : World) : World × Option (Except Fault α) :=
      let (w, answer) := follow course cue w
      (w, some answer)
    match cue.bind Cue.heed with
    | none => finish w
    | some use =>
      match heed context use w with
      | (w, none) => (w, none)
      | (w, some none) => finish w
      | (w, some (some fault)) => (w, some (.error fault))

def answer : (c : Call) → Answering c.Reply
  | .bulkSync request context =>
    respondLong (.bulkSync request context) context
      (steady (bulkOutcome? (usualBulk request)) fun _ => .ok (usualBulk request))
  | .catchUp collection start budget context =>
    respondLong (.catchUp collection start budget context) context
      (steady (catchUpOutcome? (usualCatchUp start)) fun _ => .ok (usualCatchUp start))
  | .finalize collection start upperBound context =>
    respondLong (.finalize collection start upperBound context) context (fixed fun _ => .ok ())
  | c => answerShort c

def World.play {α : Type} (w : World) (p : Act α) : World × Option α := p.play answer w

end FollowerSync.Rehearsal
