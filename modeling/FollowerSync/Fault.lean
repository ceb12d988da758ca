set_option autoImplicit false

namespace FollowerSync

inductive Code where
  | failed
  | shuttingDown
  | attemptTimeoutExceeded
  | wrongChecksum
  | actionUnfinished
  | databaseNotFound
  | dataSourceNotFound
  | couldNotConnect
  | timeout
  | shardNonEmpty
  | lockNotFound
  | internal
  deriving DecidableEq, Repr, Inhabited

namespace Code

def all : List Code :=
  [failed, shuttingDown, attemptTimeoutExceeded, wrongChecksum, actionUnfinished,
    databaseNotFound, dataSourceNotFound, couldNotConnect, timeout, shardNonEmpty, lockNotFound,
    internal]

def name : Code → String
  | failed => "Failed"
  | shuttingDown => "ShuttingDown"
  | attemptTimeoutExceeded => "AttemptTimeoutExceeded"
  | wrongChecksum => "WrongChecksum"
  | actionUnfinished => "ActionUnfinished"
  | databaseNotFound => "DatabaseNotFound"
  | dataSourceNotFound => "DataSourceNotFound"
  | couldNotConnect => "CouldNotConnect"
  | timeout => "Timeout"
  | shardNonEmpty => "ShardNonEmpty"
  | lockNotFound => "LockNotFound"
  | internal => "Internal"

def text : Code → String
  | failed => "FAILED"
  | shuttingDown => "SHUTTING_DOWN"
  | attemptTimeoutExceeded => "SHARD_SYNC_ATTEMPT_TIMEOUT_EXCEEDED"
  | wrongChecksum => "WRONG_CHECKSUM"
  | actionUnfinished => "ACTION_UNFINISHED"
  | databaseNotFound => "DATABASE_NOT_FOUND"
  | dataSourceNotFound => "DATA_SOURCE_NOT_FOUND"
  | couldNotConnect => "COULD_NOT_CONNECT"
  | timeout => "TIMEOUT"
  | shardNonEmpty => "SHARD_NONEMPTY"
  | lockNotFound => "LOCK_NOT_FOUND"
  | internal => "INTERNAL"

def ofName? (s : String) : Option Code := all.find? (·.name = s)

end Code

inductive Fault where
  | config (reason : String)
  | configParse
  | configSerialize
  | shuttingDown
  | planChanged (reason : String)
  | attemptTimeout
  | requeued
  | rpc (code : Code) (reason : String)
  | connectionFailed (address reason : String)
  | connectionTimeout (address : String)
  | checksumMismatch (reason : String)
  | lockRelease (reason : String)
  | shardVanished (database shard : String)
  | collectionNotFound (reason : String)
  | network (reason : String)
  | serialization (reason : String)
  | io (reason : String)
  | internal (reason : String)
  deriving DecidableEq, Repr

namespace Fault

def message : Fault → String
  | config reason => "Configuration error: " ++ reason
  | configParse => "Invalid configuration file"
  | configSerialize => "Configuration serialization error"
  | shuttingDown => "Shutdown in progress"
  | planChanged reason => "Synchronization cancelled: " ++ reason
  | attemptTimeout => "Shard synchronization attempt timeout exceeded"
  | requeued => "Action rescheduled to slow operation priority"
  | rpc code reason => "Leader error [" ++ code.text ++ "]: " ++ reason
  | connectionFailed address reason => "Connection failed to " ++ address ++ ": " ++ reason
  | connectionTimeout address => "Connection timeout to " ++ address
  | checksumMismatch reason => "Wrong checksum: " ++ reason
  | lockRelease reason => "Failed to release lock on leader: " ++ reason
  | shardVanished database shard =>
    "Shard " ++ database ++ "/" ++ shard ++ " seems to be gone from leader"
  | collectionNotFound reason => "Local shard not found: " ++ reason
  | network reason => "Network error: " ++ reason
  | serialization reason => "Serialization error: " ++ reason
  | io reason => "I/O error: " ++ reason
  | internal reason => "Internal error: " ++ reason

def code : Fault → Code
  | shuttingDown => .shuttingDown
  | planChanged _ => .failed
  | attemptTimeout => .attemptTimeoutExceeded
  | requeued => .actionUnfinished
  | rpc code _ => code
  | connectionFailed .. => .couldNotConnect
  | connectionTimeout _ => .timeout
  | checksumMismatch _ => .wrongChecksum
  | collectionNotFound _ => .dataSourceNotFound
  | _ => .internal

def countsAsFailure : Fault → Bool
  | shuttingDown | planChanged _ | attemptTimeout | requeued => false
  | _ => true

/-- Whether the code says that the other side was never reached. -/
def isConnectFailure (f : Fault) : Bool := f.code = .couldNotConnect

theorem isConnectFailure_iff (f : Fault) :
    f.isConnectFailure ↔
      (∃ address reason, f = connectionFailed address reason) ∨
        ∃ reason, f = rpc .couldNotConnect reason := by
  unfold isConnectFailure
  rw [decide_eq_true_iff]
  cases f <;> simp [code]

end Fault
end FollowerSync
