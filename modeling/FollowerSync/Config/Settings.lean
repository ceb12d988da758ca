import FollowerSync.Config.Basic
import FollowerSync.Duration

set_option autoImplicit false

namespace FollowerSync
open Numeric

structure Settings where
  /-- Only attempts that compare by revision are limited. -/
  attemptTimeout : Option Duration
  readinessPoll : Duration
  softLockMaxRounds : UInt32
  softLockTimeout : Duration
  softLockDutyCycle : Binary64
  hardLockTimeout : Duration
  cancelLockTimeout : Duration
  addFollowerTimeout : Duration
  leaderCountTimeout : Duration
  leaderRecountTimeout : Duration
  requeueDocDiffThreshold : UInt64
  backoffFailureThreshold : UInt64
  backoffMax : Duration
  backoffStep : Duration
  currentVersionWait : Duration
  longBulkSync : Duration
  deriving DecidableEq

def Settings.softCatchUpBudget? (s : Settings) : Option Duration :=
  s.softLockTimeout.scale? s.softLockDutyCycle

namespace Config

def Pacing.settings? (p : Pacing) : Option Settings :=
  (Duration.ofSeconds? p.backoffMax).map fun backoffMax => {
    attemptTimeout := if p.attemptTimeout = 0 then none else some (.ofSecs p.attemptTimeout)
    readinessPoll := .ofMillis p.readinessPollMillis
    softLockMaxRounds := p.softLockMaxRounds
    softLockTimeout := .ofSecs p.softLockTimeout
    softLockDutyCycle := p.softLockDutyCycle
    hardLockTimeout := .ofSecs p.hardLockTimeout
    cancelLockTimeout := .ofSecs p.cancelLockTimeout
    addFollowerTimeout := .ofSecs p.addFollowerTimeout
    leaderCountTimeout := .ofSecs p.leaderCountTimeout
    leaderRecountTimeout := .ofSecs p.leaderRecountTimeout
    requeueDocDiffThreshold := p.requeueDocDiffThreshold
    backoffFailureThreshold := p.backoffFailureThreshold
    backoffMax
    backoffStep := .ofMillis p.backoffStepMillis
    currentVersionWait := .ofSecs p.currentVersionWait
    longBulkSync := .ofSecs p.longBulkSync }

def settings? (c : Config) : Option Settings := c.pacing.settings?

def connectTimeout (c : Config) : Duration := .ofMillis c.requests.connectTimeoutMillis

def requestTimeout (c : Config) : Duration := .ofSecs c.requests.requestTimeoutSecs

end Config
end FollowerSync
