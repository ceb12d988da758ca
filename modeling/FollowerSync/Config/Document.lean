import FollowerSync.Config.Basic
import FollowerSync.Document.Toml.Reader
import FollowerSync.Document.Toml.Writer
import FollowerSync.Wire.Utf8

set_option autoImplicit false

namespace FollowerSync.Config
open Document Numeric

def Node.fieldNames : List String := ["id", "reboot_id"]

def Node.ofDocument? (v : Value) : Option Node := do
  match ← v.fields? .surplus fieldNames with
  | [id, rebootId] =>
    return { id := ← required Value.text? id, rebootId := ← optional Value.uint64? 0 rebootId }
  | _ => none

def Pacing.fieldNames : List String :=
  ["attempt_timeout_secs", "readiness_poll_ms", "soft_lock_max_rounds", "soft_lock_timeout_secs",
    "soft_lock_duty_cycle", "hard_lock_timeout_secs", "cancel_lock_timeout_secs",
    "add_follower_timeout_secs", "leader_count_timeout_secs", "leader_recount_timeout_secs",
    "requeue_doc_diff_threshold", "backoff_failure_threshold", "backoff_max_secs",
    "backoff_step_ms", "current_version_wait_secs", "long_bulk_sync_secs"]

def Pacing.ofDocument? (v : Value) : Option Pacing := do
  let absent : Pacing := {}
  match ← v.fields? .surplus fieldNames with
  | [attemptTimeout, readinessPoll, maxRounds, softLockTimeout, dutyCycle, hardLockTimeout,
      cancelLockTimeout, addFollowerTimeout, countTimeout, recountTimeout, docDiffThreshold,
      failureThreshold, backoffMax, backoffStep, versionWait, longBulkSync] =>
    return {
      attemptTimeout := ← optional Value.uint64? absent.attemptTimeout attemptTimeout
      readinessPollMillis := ← optional Value.uint64? absent.readinessPollMillis readinessPoll
      softLockMaxRounds := ← optional Value.uint32? absent.softLockMaxRounds maxRounds
      softLockTimeout := ← optional Value.uint64? absent.softLockTimeout softLockTimeout
      softLockDutyCycle := ← optional Value.float? absent.softLockDutyCycle dutyCycle
      hardLockTimeout := ← optional Value.uint64? absent.hardLockTimeout hardLockTimeout
      cancelLockTimeout := ← optional Value.uint64? absent.cancelLockTimeout cancelLockTimeout
      addFollowerTimeout := ← optional Value.uint64? absent.addFollowerTimeout addFollowerTimeout
      leaderCountTimeout := ← optional Value.uint64? absent.leaderCountTimeout countTimeout
      leaderRecountTimeout := ← optional Value.uint64? absent.leaderRecountTimeout recountTimeout
      requeueDocDiffThreshold :=
        ← optional Value.uint64? absent.requeueDocDiffThreshold docDiffThreshold
      backoffFailureThreshold :=
        ← optional Value.uint64? absent.backoffFailureThreshold failureThreshold
      backoffMax := ← optional Value.float? absent.backoffMax backoffMax
      backoffStepMillis := ← optional Value.uint64? absent.backoffStepMillis backoffStep
      currentVersionWait := ← optional Value.uint64? absent.currentVersionWait versionWait
      longBulkSync := ← optional Value.uint64? absent.longBulkSync longBulkSync }
  | _ => none

def Requests.fieldNames : List String := ["connect_timeout_ms", "request_timeout_secs"]

def Requests.ofDocument? (v : Value) : Option Requests := do
  let absent : Requests := {}
  match ← v.fields? .surplus fieldNames with
  | [connectTimeout, requestTimeout] =>
    return {
      connectTimeoutMillis := ← optional Value.uint64? absent.connectTimeoutMillis connectTimeout
      requestTimeoutSecs := ← optional Value.uint64? absent.requestTimeoutSecs requestTimeout }
  | _ => none

def Logging.fieldNames : List String := ["level", "format"]

def Logging.ofDocument? (v : Value) : Option Logging := do
  let absent : Logging := {}
  match ← v.fields? .surplus fieldNames with
  | [level, format] =>
    return {
      level := ← optional Value.text? absent.level level
      format := ← optional Value.text? absent.format format }
  | _ => none

def partNames : List String := ["node", "sync", "rpc", "logging"]

def ofDocument? (v : Value) : Option Config := do
  match ← v.fields? .surplus partNames with
  | [node, pacing, requests, logging] =>
    return {
      node := ← required Node.ofDocument? node
      pacing := ← optional Pacing.ofDocument? {} pacing
      requests := ← optional Requests.ofDocument? {} requests
      logging := ← optional Logging.ofDocument? {} logging }
  | _ => none

def whole (n : UInt64) : Value := .integer n.toNat

def Node.values (n : Node) : List Value := [.text n.id, whole n.rebootId]

def Pacing.values (p : Pacing) : List Value :=
  [whole p.attemptTimeout, whole p.readinessPollMillis, .integer p.softLockMaxRounds.toNat,
    whole p.softLockTimeout, .float p.softLockDutyCycle, whole p.hardLockTimeout,
    whole p.cancelLockTimeout, whole p.addFollowerTimeout, whole p.leaderCountTimeout,
    whole p.leaderRecountTimeout, whole p.requeueDocDiffThreshold,
    whole p.backoffFailureThreshold, .float p.backoffMax, whole p.backoffStepMillis,
    whole p.currentVersionWait, whole p.longBulkSync]

def Requests.values (r : Requests) : List Value :=
  [whole r.connectTimeoutMillis, whole r.requestTimeoutSecs]

def Logging.values (l : Logging) : List Value := [.text l.level, .text l.format]

def sections (c : Config) : List Toml.Section :=
  [⟨"node", Node.fieldNames.zip c.node.values⟩, ⟨"sync", Pacing.fieldNames.zip c.pacing.values⟩,
    ⟨"rpc", Requests.fieldNames.zip c.requests.values⟩,
    ⟨"logging", Logging.fieldNames.zip c.logging.values⟩]

def render (c : Config) : Except Fault String :=
  match Toml.write? c.sections with
  | some text => .ok text
  | none => .error .configSerialize

def parse (text : String) : Except Fault Config :=
  match (Toml.read? text).bind ofDocument? with
  | none => .error .configParse
  | some c => c.validate.map fun _ => c

abbrev FileBytes := Except String (List UInt8)

def load : FileBytes → Except Fault Config
  | .error reason => .error (.io reason)
  | .ok bytes =>
    match Wire.Utf8.text? bytes with
    | some text => parse text
    | none => .error (.io "stream did not contain valid UTF-8")

end FollowerSync.Config
