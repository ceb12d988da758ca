import FollowerSync.Command.Arguments
import FollowerSync.Command.Text
import FollowerSync.Config.Document
import FollowerSync.Config.Settings
import FollowerSync.Maintenance.Backoff
import FollowerSync.Wire.Client

/-!
# Commands

What an operator can have done: write or check a configuration, ask a leader for counts, have a
lock cancelled, and see the delay after failures. A configuration that cannot be loaded is
replaced by the defaults, except where it is to be checked.
-/

set_option autoImplicit false

namespace FollowerSync.Command
open Numeric

inductive Call where
  | readFile (path : String)
  | pathExists (path : String)
  | writeFile (path text : String)
  | socket (c : Wire.Socket.Call)
  | say (line : String)

@[reducible] def Call.Reply : Call → Type
  | readFile _ => Config.FileBytes
  | pathExists _ => Bool
  | writeFile .. => Except String Unit
  | socket c => c.Reply
  | say _ => Unit

@[reducible] def machine : Signature := ⟨Call, Call.Reply⟩

inductive Ending where
  | done
  | failed (failure : Failure)
  | broken
  deriving DecidableEq

abbrev Act := Program machine

def ask (c : Call) : Act c.Reply := Program.ask (S := machine) c

def say (line : String) : Act Unit := ask (.say line)

def init (output node : String) : Act Ending := do
  if ← ask (.pathExists output) then
    return .failed { headline := output ++ " already exists, refusing to overwrite" }
  match (Config.forNode node).render with
  | .error fault => return .failed { headline := fault.message }
  | .ok text =>
    match ← ask (.writeFile output text) with
    | .error reason =>
      return .failed { headline := "failed to write " ++ output, causes := some [reason] }
    | .ok () =>
      say ("Configuration written to " ++ output)
      return .done

def validate (path : String) : Act Ending := do
  match Config.load (← ask (.readFile path)) with
  | .error fault => return .failed (failing ("invalid configuration in " ++ path) fault)
  | .ok config =>
    match config.settings? with
    | none => return .broken
    | some settings =>
      say "Configuration is valid"
      say ("  Node ID: " ++ config.node.id ++ " (reboot " ++
        digitsText config.node.rebootId.toNat ++ ")")
      match settings.softCatchUpBudget? with
      | none => return .broken
      | some budget =>
        say ("  Soft lock: " ++ digitsText settings.softLockMaxRounds.toNat ++ " rounds of " ++
          settings.softLockTimeout.text ++ ", catch-up budget " ++ budget.text)
        say ("  Hard lock: " ++ settings.hardLockTimeout.text)
        say ("  Attempt timeout: " ++ ((settings.attemptTimeout.map Duration.text).getD "none"))
        say ("  Requeue threshold: " ++ digitsText settings.requeueDocDiffThreshold.toNat ++
          " documents")
        return .done

def send (config : Config) {α : Type} (talk : Wire.Client → Wire.Talk (Except Fault α)) :
    Act (Except Fault α) :=
  (talk ⟨config.connectTimeout⟩).perform fun c => ask (.socket c)

def sayCount (json : Bool) (leader database shard : String) (count : UInt64) : Act Unit :=
  if json then
    say (jsonObject [("count", digitsText count.toNat), ("database", jsonString database),
      ("leader", jsonString leader), ("shard", jsonString shard)])
  else say (database ++ "/" ++ shard ++ ": " ++ digitsText count.toNat ++ " documents")

def concludeCount (json : Bool) (leader database shard : String) :
    Except Fault UInt64 → Act Ending
  | .ok count => do
    sayCount json leader database shard count
    return .done
  | .error fault =>
    return .failed (failing
      ("failed to get count of " ++ database ++ "/" ++ shard ++ " from " ++ leader) fault)

def count (config : Config) (json : Bool) (leader database shard : String) : Act Ending := do
  match config.settings? with
  | none => return .broken
  | some _ =>
    concludeCount json leader database shard
      (← send config (·.collectionCount leader database shard config.requestTimeout))

def recount (config : Config) (json : Bool) (leader database shard : String) : Act Ending := do
  match config.settings? with
  | none => return .broken
  | some settings =>
    concludeCount json leader database shard
      (← send config (·.recalculateCount leader database shard settings.leaderRecountTimeout))

def cancelLock (config : Config) (leader database : String) (id : UInt64) (clientId : String) :
    Act Ending := do
  let lock := digitsText id.toNat
  match ← send config (·.cancelLock leader database id clientId config.requestTimeout) with
  | .ok _ =>
    say ("Lock " ++ lock ++ " on " ++ leader ++ " released")
    return .done
  | .error fault =>
    return .failed (failing ("failed to cancel lock " ++ lock ++ " on " ++ leader) fault)

def sayBackoff (json : Bool) (failures : Nat) (delay : Option Duration) : Act Unit :=
  let n := digitsText failures
  let seconds := (delay.map Duration.toSeconds).getD (.ofNat 0)
  if json then say (jsonObject [("delay_secs", seconds.jsonText), ("failures", n)])
  else if delay.isSome then
    say (n ++ " failures: next attempt delayed by " ++ seconds.fixedText 1 ++ " s")
  else say (n ++ " failures: no delay")

def backoff (config : Config) (json : Bool) (failures : Nat) : Act Ending := do
  match config.settings? with
  | none => return .broken
  | some settings =>
    let threshold := settings.backoffFailureThreshold.toNat
    if ¬BackoffFits failures threshold then return .broken
    sayBackoff json failures (backoffDelay failures threshold settings.backoffMax)
    return .done

def loadOrDefault (path : String) : Act Config :=
  return ((Config.load (← ask (.readFile path))).toOption).getD (Config.forNode "shardsync")

def run (invocation : Invocation) : Act Ending := do
  let config ← loadOrDefault invocation.config
  let json := invocation.json
  match invocation.action with
  | .init output node => init output node
  | .validate => validate invocation.config
  | .count leader database shard => count config json leader database shard
  | .recount leader database shard => recount config json leader database shard
  | .cancelLock leader database id clientId => cancelLock config leader database id clientId
  | .backoff failures => backoff config json failures

def version : String := "shardsync 0.1.0"

structure Exit where
  status : Nat
  complaint : String := ""
  deriving DecidableEq

def Ending.exit : Ending → Exit
  | done => { status := 0 }
  | failed failure => { status := 1, complaint := failure.text }
  | broken => { status := 101, complaint := "panic" }

def invoke (args : List String) : Act Exit := do
  match parse args with
  | .ok invocation => return (← run invocation).exit
  | .error .help =>
    say usage
    return { status := 0 }
  | .error .version =>
    say version
    return { status := 0 }
  | .error .misuse => return { status := 2 }

end FollowerSync.Command
