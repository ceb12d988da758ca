import FollowerSync.Proofs.Expenses

/-!
# Rounds under soft locks

Once the shard is copied and before it takes the hard lock, an attempt follows the log in rounds. A
round looks at whether the server stops, is granted a soft lock, follows the log and cancels the lock. The rounds end with the
first one that reaches the end of the log in time, or when there have been as many as are allowed;
a round that fails is the end of the attempt.
-/

set_option autoImplicit false

namespace FollowerSync.Attempt
open Leader

/-- Calls that have no part in copying the shard or in following the log under a lock. -/
def Call.Outside : Call → Prop
  | .leader _ (.newLockId _) _ | .leader _ (.acquireLock _) _ | .leader _ (.cancelLock ..) _
  | .bulkSync .. | .catchUp .. => False
  | _ => True

/-- Calls that neither start on a lock nor follow the log in a round. -/
def Call.Trails : Call → Prop
  | .leader _ (.cancelLock ..) _ => True
  | c => c.Outside

structure Round where
  lockId : UInt64
  grant : LockGrant
  start : Tick
  context : Context
  outcome : CatchUpOutcome
  answer : Except Fault Unit
  released : Guard.released answer = .ok ()

/-- So many rounds are allowed, and these are the ones there have been. -/
structure Finished (limit : Nat) (rounds : List Round) : Prop where
  bounded : rounds.length ≤ limit
  timedOut : ∀ round ∈ rounds.dropLast, round.outcome.timedOut = true
  ended : rounds.length = limit ∨
    ∃ last, rounds.getLast? = some last ∧ last.outcome.timedOut = false

section
variable (setting : Setting) (job : Job) (endpoint : String)

abbrev fetchCall (ttl : Duration) : Call := .leader endpoint (.newLockId job.database) ttl

abbrev lockCall (mode : LockMode) (ttl : Duration) (lockId : UInt64) : Call :=
  .leader endpoint (.acquireLock { lockRequest setting job mode ttl with lockId }) ttl

abbrev releaseCall (lockId : UInt64) : Call :=
  .leader endpoint (.cancelLock job.database lockId job.clientId) setting.settings.cancelLockTimeout

def handshake (mode : LockMode) (ttl : Duration) (lockId : UInt64) (grant : LockGrant) :
    History surroundings :=
  [⟨fetchCall job endpoint ttl, .ok lockId⟩,
   ⟨lockCall setting job endpoint mode ttl lockId, .ok grant⟩]

/-- What a handshake comes to in which none is. -/
inductive FailedHandshake (mode : LockMode) (ttl : Duration) : History surroundings → Prop
  | unfetched (fault : Fault) :
    FailedHandshake mode ttl [⟨fetchCall job endpoint ttl, .error fault⟩]
  | unreached (lockId : UInt64) {fault : Fault} (unreached : fault.isConnectFailure = true) :
    FailedHandshake mode ttl [⟨fetchCall job endpoint ttl, .ok lockId⟩,
      ⟨lockCall setting job endpoint mode ttl lockId, .error fault⟩]
  | refused (lockId : UInt64) {fault : Fault} (reached : ¬fault.isConnectFailure = true)
    (answer : Except Fault Unit) :
    FailedHandshake mode ttl [⟨fetchCall job endpoint ttl, .ok lockId⟩,
      ⟨lockCall setting job endpoint mode ttl lockId, .error fault⟩,
      ⟨releaseCall setting job endpoint lockId, answer⟩]

def lockedRound (lockId : UInt64) (grant : LockGrant) (held : History surroundings) :
    History surroundings :=
  ⟨.stopping, false⟩ ::
    (handshake setting job endpoint .soft setting.settings.softLockTimeout lockId grant ++ held)

section
variable (budget : Duration)

def Round.events (r : Round) : History surroundings :=
  lockedRound setting job endpoint r.lockId r.grant
    [⟨.catchUp job.shard r.start budget r.context, .ok r.outcome⟩,
     ⟨releaseCall setting job endpoint r.lockId, r.answer⟩]

def eventsOf (rounds : List Round) : History surroundings :=
  rounds.flatMap (Round.events setting job endpoint budget)

/-- A round in which a step fails. A lock that was granted is cancelled all the same. -/
inductive FailedRound : History surroundings → Prop
  | stopped : FailedRound [⟨.stopping, true⟩]
  | unlocked {es : History surroundings}
    (failed : FailedHandshake setting job endpoint .soft setting.settings.softLockTimeout es) :
    FailedRound (⟨.stopping, false⟩ :: es)
  | unfollowed (lockId : UInt64) (grant : LockGrant) (start : Tick) (context : Context)
    (fault : Fault) (answer : Except Fault Unit) :
    FailedRound (lockedRound setting job endpoint lockId grant
      [⟨.catchUp job.shard start budget context, .error fault⟩,
       ⟨releaseCall setting job endpoint lockId, answer⟩])
  | unreleased (lockId : UInt64) (grant : LockGrant) (start : Tick) (context : Context)
    (outcome : CatchUpOutcome) {answer : Except Fault Unit}
    (failed : Guard.released answer ≠ .ok ()) :
    FailedRound (lockedRound setting job endpoint lockId grant
      [⟨.catchUp job.shard start budget context, .ok outcome⟩,
       ⟨releaseCall setting job endpoint lockId, answer⟩])

/-- The rounds are cut short by one that fails, after which no lock is started on anymore. -/
inductive CutShort (limit : Nat) : History surroundings → Prop
  | intro {rounds : List Round} {failed after : History surroundings}
    (timedOut : ∀ round ∈ rounds, round.outcome.timedOut = true) (allowed : rounds.length < limit)
    (fails : FailedRound setting job endpoint budget failed)
    (outside : ∀ e ∈ after, Call.Outside e.call) :
    CutShort limit (eventsOf setting job endpoint budget rounds ++ (failed ++ after))

end

/-- What happens from the hard lock on: one handshake, and then what is done if it fails or under
the lock. -/
inductive HardPhase : History surroundings → Prop
  | unlocked {es after : History surroundings}
    (failed : FailedHandshake setting job endpoint .hard setting.settings.hardLockTimeout es)
    (outside : ∀ e ∈ after, Call.Outside e.call) : HardPhase (es ++ after)
  | locked (lockId : UInt64) (grant : LockGrant) {after : History surroundings}
    (trails : ∀ e ∈ after, Call.Trails e.call) :
    HardPhase (handshake setting job endpoint .hard setting.settings.hardLockTimeout lockId grant ++
      after)

/-- The shard is not copied by this call. -/
def Preliminary : Event surroundings → Prop
  | ⟨.bulkSync .., .ok outcome⟩ => outcome.processed.head? ≠ some job.shard
  | ⟨.bulkSync .., .error _⟩ => True
  | e => Call.Outside e.call

/-- The shard has just been copied, and now the rounds begin. -/
inductive Begun : History surroundings → Prop
  | intro {earlier : History surroundings} (outside : ∀ e ∈ earlier, Call.Outside e.call)
    (request : BulkRequest) (context : Context) {outcome : BulkOutcome}
    (copied : outcome.processed.head? = some job.shard) :
    Begun (earlier ++ [⟨.bulkSync request context, .ok outcome⟩])

/-- How the soft locks may go in an attempt that ends with a fault or without one: it fails before
the shard is copied; a round fails; or the rounds are finished, and then the hard lock is taken
unless the server stops. -/
inductive LockCourse : Option Fault → History surroundings → Prop
  | unbegun {before : History surroundings} (fault : Fault)
    (preliminary : ∀ e ∈ before, Preliminary job e) : LockCourse (some fault) before
  | cutShort {before es : History surroundings} {endpoint : String} {budget : Duration}
    (fault : Fault) (begun : Begun job before)
    (affords : setting.settings.softCatchUpBudget? = some budget)
    (fails : CutShort setting job endpoint budget setting.settings.softLockMaxRounds.toNat es) :
    LockCourse (some fault) (before ++ es)
  | stopped {before after : History surroundings} {endpoint : String} {budget : Duration}
    {rounds : List Round} (begun : Begun job before)
    (affords : setting.settings.softCatchUpBudget? = some budget)
    (finished : Finished setting.settings.softLockMaxRounds.toNat rounds)
    (ends : ∀ e ∈ after, Call.Outside e.call) :
    LockCourse (some .shuttingDown)
      (before ++ (eventsOf setting job endpoint budget rounds ++ ⟨.stopping, true⟩ :: after))
  | locked {before es : History surroundings} {endpoint : String} {budget : Duration}
    {rounds : List Round} (fault : Option Fault) (begun : Begun job before)
    (affords : setting.settings.softCatchUpBudget? = some budget)
    (finished : Finished setting.settings.softLockMaxRounds.toNat rounds)
    (hard : HardPhase setting job endpoint es) :
    LockCourse fault
      (before ++ (eventsOf setting job endpoint budget rounds ++ ⟨.stopping, false⟩ :: es))

end

section
variable {setting : Setting} {job : Job} {endpoint : String} {budget : Duration}
  {es : History surroundings}

theorem cutShort_of_failed {limit : Nat} {rounds : List Round}
    (timedOut : ∀ round ∈ rounds, round.outcome.timedOut = true) (allowed : rounds.length < limit)
    (fails : FailedRound setting job endpoint budget es) :
    CutShort setting job endpoint budget limit (eventsOf setting job endpoint budget rounds ++ es) := by
  simpa using CutShort.intro timedOut allowed fails (List.forall_mem_nil _)

theorem hardPhase_of_failed
    (failed : FailedHandshake setting job endpoint .hard setting.settings.hardLockTimeout es) :
    HardPhase setting job endpoint es := by
  simpa using HardPhase.unlocked failed (List.forall_mem_nil _)

end

/-- A call is allowed if some answer to it still leads to an end in `F`, and so is a halt where
there is one already; calls outside do not undo an end. -/
structure Permits (ok : History surroundings → Call → Prop) (F : History surroundings → Prop) :
    Prop where
  toward : ∀ {h later : History surroundings} {c : Call} {r : c.Reply},
    F (h ++ ⟨c, r⟩ :: later) → ok h c
  halting : ∀ {h : History surroundings} (reason : Halt), F h → ok h (.halt reason)
  settled : ∀ {h : History surroundings} {e : Event surroundings},
    F h → Call.Outside e.call → F (h ++ [e])

theorem Call.Assists.outside {c : Call} (assists : c.Assists) : c.Outside := by
  cases c with
  | leader endpoint request limit => cases request <;> trivial
  | bulkSync | catchUp => cases assists
  | _ => trivial

theorem Call.Looks.outside {c : Call} (looks : c.Looks) : c.Outside := looks.assists.outside

theorem Call.Bides.outside {c : Call} {job : Job} (bides : c.Bides job) : c.Outside := by
  cases c with
  | leader | bulkSync | catchUp => cases bides
  | _ => trivial

theorem Call.Prepares.outside {c : Call} {job : Job} (prepares : c.Prepares job) : c.Outside := by
  cases c with
  | leader endpoint request limit => cases request <;> trivial
  | bulkSync | catchUp => cases prepares
  | _ => trivial

theorem Call.Outside.trails {c : Call} (outside : c.Outside) : c.Trails := by
  cases c with
  | leader endpoint request limit => cases request <;> trivial
  | _ => exact outside

theorem Call.Registers.trails {c : Call} (registers : c.Registers) : c.Trails := by
  cases c with
  | leader endpoint request limit => cases request <;> trivial
  | bulkSync | catchUp => cases registers
  | _ => trivial

section
variable {ok : History surroundings → Call → Prop} {F : History surroundings → Prop}
  {h : History surroundings} {j : Journal}

theorem Call.answered_or_halts (c : Call) : Nonempty c.Reply ∨ ∃ reason, c = .halt reason := by
  cases c with
  | upkeep op => exact .inl ⟨(Maintenance.Store.perform {} op).1⟩
  | halt reason => exact .inr ⟨reason, rfl⟩
  | stopping | draw => exact .inl ⟨false⟩
  | now => exact .inl ⟨(0 : Nat)⟩
  | awaitVersion => exact .inl ⟨none⟩
  | openBulkSyncer | openTailingSyncer | followLeader | sleep | suspend => exact .inl ⟨()⟩
  | _ => exact .inl ⟨.error .shuttingDown⟩

theorem Permits.towardLast {c : Call} {r : c.Reply} (permits : Permits ok F)
    (last : F (h ++ [⟨c, r⟩])) : ok h c :=
  permits.toward last

theorem Permits.next {c : Call} (permits : Permits ok F) (last : F h)
    (goes : ∀ r, F (h ++ [⟨c, r⟩])) : ok h c := by
  rcases c.answered_or_halts with ⟨⟨r⟩⟩ | ⟨reason, rfl⟩
  · exact permits.toward (goes r)
  · exact permits.halting reason last

theorem Permits.stable (permits : Permits ok F) :
    Stage.Stable ok Call.Outside fun _ => F where
  allowed := fun _ _ _ last outside => permits.next last fun _ => permits.settled last outside
  kept := fun _ _ _ _ last outside => permits.settled last outside

variable (setting : Setting) (job : Job) (endpoint : String)

theorem forall_mem_concat {α : Type} {P : α → Prop} {l : List α} {a : α} (all : ∀ b ∈ l, P b)
    (last : P a) : ∀ b ∈ l ++ [a], P b :=
  List.forall_mem_append.mpr ⟨all, List.forall_mem_singleton.mpr last⟩

theorem keeps_acquireLock (permits : Permits ok F) (mode : LockMode) (ttl : Duration)
    {Q : Guard → Journal → History surroundings → Prop}
    (failed : ∀ es, FailedHandshake setting job endpoint mode ttl es → F (h ++ es))
    (granted : ∀ (lockId : UInt64) (grant : LockGrant),
      Q ⟨endpoint, job.database, job.clientId, lockId, grant, setting.settings.cancelLockTimeout,
          true⟩ j (h ++ handshake setting job endpoint mode ttl lockId grant)) :
    (acquireLock setting job endpoint mode ttl).Keeps ok Q (fun _ _ => F) j h := by
  have stable := permits.stable.mono fun _ => Call.Looks.outside
  refine keeps_classified setting job stable ?_
  rw [keeps_acquire]
  intro fetch
  refine ⟨?fetch, fun fault => failed _ (.unfetched fault), fun lockId => ?fetched⟩
  case fetch => exact permits.toward (failed _ (.unfetched .shuttingDown))
  case fetched =>
    intro fetched lock cancel
    have unreached (fault : Fault) (unreached : fault.isConnectFailure = true) :
        F (fetched ++ [⟨lock, .error fault⟩]) := by
      rw [List.append_assoc]
      exact failed _ (.unreached lockId unreached)
    have refused {fault : Fault} (reached : ¬fault.isConnectFailure = true)
        (answer : Except Fault Unit) : F (fetched ++ [⟨lock, .error fault⟩] ++ [⟨cancel, answer⟩]) := by
      rw [List.append_assoc, List.append_assoc]
      exact failed _ (.refused lockId reached answer)
    refine ⟨?lock, fun grant => ?granted, fun fault => ⟨unreached fault, fun reached => ?_⟩⟩
    case lock =>
      exact permits.toward (unreached (.connectionFailed "" "") rfl)
    case granted =>
      rw [List.append_assoc]
      exact granted lockId grant
    exact ⟨permits.toward (refused reached (.ok ())), refused reached⟩

theorem keeps_softRound (permits : Permits ok F) (budget : Duration)
    {Q : Bool → Journal → History surroundings → Prop}
    (failed : ∀ es, FailedRound setting job endpoint budget es → F (h ++ es))
    (passed : ∀ (round : Round) j,
      Q round.outcome.timedOut j (h ++ round.events setting job endpoint budget)) :
    (softRound setting job endpoint budget).Keeps ok Q (fun _ _ => F) j h := by
  have stopped := failed _ .stopped
  rw [softRound_eq, Stage.keeps_bind, Stage.keeps_unlessStopping]
  refine ⟨permits.toward stopped, stopped, ?_⟩
  rw [Stage.keeps_bind]
  refine keeps_acquireLock setting job endpoint permits .soft _ ?unlocked fun lockId grant => ?locked
  case unlocked =>
    intro es fails
    rw [List.append_assoc]
    exact failed _ (.unlocked fails)
  case locked =>
    have unfollowed (fault : Fault) (answer : Except Fault Unit) :=
      failed _ (.unfollowed lockId grant j.progress.lastLogTick j.context fault answer)
    rw [keeps_followHeld]
    intro follow
    refine ⟨?follow, fun fault => ?unfollowed, fun outcome => ?followed⟩
    case follow =>
      apply permits.toward
      rw [List.append_assoc, List.append_assoc]
      exact unfollowed .shuttingDown (.ok ())
    case unfollowed =>
      have judges := (classify_uses setting job fault).mono fun _ => Call.Looks.outside
      refine ⟨permits.towardLast (r := .ok ()) ?_, fun answer =>
        judges.preserves permits.stable j _ ?_⟩
      all_goals
        rw [List.append_assoc, List.append_assoc, List.append_assoc]
        exact unfollowed fault _
    case followed =>
      refine ⟨permits.towardLast (r := .error .shuttingDown) ?_, fun answer =>
        ⟨fun released => ?_, fun fault unreleased => ?_⟩⟩
      all_goals rw [List.append_assoc, List.append_assoc, List.append_assoc]
      · exact failed _ (.unreleased lockId grant _ _ outcome (by simp [Guard.released, Fault.code]))
      · exact passed ⟨lockId, grant, _, _, outcome, answer, released⟩ _
      · exact failed _ (.unreleased lockId grant _ _ outcome (by simp [unreleased]))

theorem eventsOf_append_singleton (budget : Duration) (rounds : List Round) (round : Round) :
    eventsOf setting job endpoint budget (rounds ++ [round]) =
      eventsOf setting job endpoint budget rounds ++ round.events setting job endpoint budget := by
  simp [eventsOf]

theorem keeps_softRounds (permits : Permits ok F) (budget : Duration) {limit : Nat}
    {Q : Unit → Journal → History surroundings → Prop}
    (cut : ∀ es, CutShort setting job endpoint budget limit es → F (h ++ es))
    (finished : ∀ rounds j, Finished limit rounds →
      Q () j (h ++ eventsOf setting job endpoint budget rounds))
    (left : Nat) (earlier : List Round) (counted : earlier.length + left = limit)
    (timedOut : ∀ round ∈ earlier, round.outcome.timedOut = true) :
    (softRounds setting job endpoint budget left).Keeps ok Q (fun _ _ => F) j
      (h ++ eventsOf setting job endpoint budget earlier) := by
  -- The earlier rounds are carried along: what has timed out so far decides how the phase may end.
  induction left generalizing earlier j with
  | zero =>
    refine finished earlier j ⟨by omega, fun round mem => ?_, .inl counted⟩
    exact timedOut round (List.dropLast_subset earlier mem)
  | succ left ih =>
    unfold softRounds
    rw [Stage.keeps_bind]
    refine keeps_softRound setting job endpoint permits budget ?failed ?passed
    case failed =>
      intro es fails
      rw [List.append_assoc]
      exact cut _ (cutShort_of_failed timedOut (by omega) fails)
    case passed =>
      intro round j
      rw [List.append_assoc, ← eventsOf_append_singleton]
      cases last : round.outcome.timedOut with
      | true => exact ih _ (by simp; omega) (forall_mem_concat timedOut last)
      | false =>
        refine finished _ j ⟨by simp; omega, ?_, .inr ⟨round, by simp, last⟩⟩
        rwa [List.dropLast_concat]

theorem keeps_catchUpSoftly (permits : Permits ok F)
    {Q : Unit → Journal → History surroundings → Prop}
    (halts : setting.settings.softCatchUpBudget? = none → ok h (.halt .outOfRange))
    (cut : ∀ budget es, setting.settings.softCatchUpBudget? = some budget →
      CutShort setting job endpoint budget setting.settings.softLockMaxRounds.toNat es → F (h ++ es))
    (finished : ∀ budget rounds j, setting.settings.softCatchUpBudget? = some budget →
      Finished setting.settings.softLockMaxRounds.toNat rounds →
      Q () j (h ++ eventsOf setting job endpoint budget rounds)) :
    (catchUpSoftly setting job endpoint).Keeps ok Q (fun _ _ => F) j h := by
  unfold catchUpSoftly
  rw [Stage.keeps_bind, Stage.keeps_enter]
  cases affords : setting.settings.softCatchUpBudget? with
  | none => exact ⟨halts affords, nofun⟩
  | some budget =>
    have rounds := keeps_softRounds setting job endpoint permits budget
      (fun es => cut budget es affords) (fun rounds j => finished budget rounds j affords)
      setting.settings.softLockMaxRounds.toNat [] (Nat.zero_add _) (List.forall_mem_nil _)
      (j := { j with phase := .softLockCatchUp })
    rwa [eventsOf, List.flatMap_nil, List.append_nil] at rounds

def HardLockedSince (h : History surroundings) (lockId : UInt64) (grant : LockGrant)
    (h' : History surroundings) : Prop :=
  ∃ after, (∀ e ∈ after, Call.Trails e.call) ∧ h' = h ++
    (handshake setting job endpoint .hard setting.settings.hardLockTimeout lockId grant ++ after)

theorem hardLockedSince_stable (permits : Permits ok F)
    (hard : ∀ es, HardPhase setting job endpoint es → F (h ++ es)) (lockId : UInt64)
    (grant : LockGrant) : Stage.Stable ok Call.Trails fun _ =>
      HardLockedSince setting job endpoint h lockId grant where
  allowed := by
    rintro _ _ c ⟨after, trails, rfl⟩ last
    refine permits.next (hard _ (.locked lockId grant trails)) fun r => ?_
    rw [List.append_assoc, List.append_assoc]
    exact hard _ (.locked lockId grant (forall_mem_concat trails last))
  kept := by
    rintro _ _ c r ⟨after, trails, rfl⟩ last
    exact ⟨after ++ [⟨c, r⟩], forall_mem_concat trails last, by simp⟩

theorem keeps_catchUpHard (permits : Permits ok F) (syncerId : UInt64)
    (hard : ∀ es, HardPhase setting job endpoint es → F (h ++ es)) :
    (catchUpHard setting job endpoint syncerId).Keeps ok (fun _ _ => F) (fun _ _ => F) j h := by
  rw [catchUpHard_eq, Stage.keeps_bind, Stage.keeps_enter, Stage.keeps_bind]
  refine keeps_acquireLock setting job endpoint permits .hard _ ?unlocked fun lockId grant => ?locked
  case unlocked =>
    exact fun es failed => hard es (hardPhase_of_failed failed)
  case locked =>
    have stable := hardLockedSince_stable setting job endpoint permits hard lockId grant
    -- The fault may be any from here on, so the end is read off the history alone.
    have ends (h' : History surroundings) :
        HardLockedSince setting job endpoint h lockId grant h' → F h' := by
      rintro ⟨after, trails, rfl⟩
      exact hard _ (.locked lockId grant trails)
    have uses := registerHeld_uses setting job endpoint syncerId
      ⟨endpoint, job.database, job.clientId, lockId, grant, setting.settings.cancelLockTimeout, true⟩
      (K := Call.Trails) trivial (fun _ => Call.Registers.trails)
      fun _ repairs => repairs.assists.outside.trails
    exact (uses.preserves stable _ _ ⟨[], List.forall_mem_nil _, rfl⟩).mono (fun _ _ => ends)
      fun _ _ => ends

end

section
variable {setting : Setting} {job : Job} {endpoint : String} {budget : Duration} {limit : Nat}
  {es : History surroundings} {e : Event surroundings}

theorem CutShort.settled (cut : CutShort setting job endpoint budget limit es)
    (outside : Call.Outside e.call) : CutShort setting job endpoint budget limit (es ++ [e]) := by
  cases cut with
  | intro timedOut allowed fails quiet =>
    rw [List.append_assoc, List.append_assoc]
    exact .intro timedOut allowed fails (forall_mem_concat quiet outside)

theorem HardPhase.settled (hard : HardPhase setting job endpoint es)
    (outside : Call.Outside e.call) : HardPhase setting job endpoint (es ++ [e]) := by
  cases hard with
  | unlocked failed quiet =>
    rw [List.append_assoc]
    exact .unlocked failed (forall_mem_concat quiet outside)
  | locked lockId grant trails =>
    exact .locked lockId grant (forall_mem_concat trails outside.trails)

theorem Call.Outside.preliminary {job : Job} (outside : Call.Outside e.call) :
    Preliminary job e := by
  obtain ⟨c, r⟩ := e
  cases c with
  | bulkSync => cases outside
  | _ => exact outside

theorem LockCourse.settled {fault : Option Fault} (course : LockCourse setting job fault es)
    (outside : Call.Outside e.call) : LockCourse setting job fault (es ++ [e]) := by
  cases course with
  | unbegun fault before => exact .unbegun fault (forall_mem_concat before outside.preliminary)
  | cutShort fault begun affords cut =>
    rw [List.append_assoc]
    exact .cutShort fault begun affords (cut.settled outside)
  | stopped begun affords finished ends =>
    rw [List.append_assoc, List.append_assoc]
    exact .stopped begun affords finished (forall_mem_concat ends outside)
  | locked fault begun affords finished hard =>
    rw [List.append_assoc, List.append_assoc]
    exact .locked fault begun affords finished (hard.settled outside)

end

/-- With this call and some answer to it an attempt goes on in its course; or it breaks off where the
course may end, or where the rounds cannot begin because their budget is none. -/
def OnCourse (setting : Setting) (job : Job) (h : History surroundings) (c : Call) : Prop :=
  (∃ r later fault, LockCourse setting job fault (h ++ ⟨c, r⟩ :: later)) ∨
    (∃ reason, c = .halt reason) ∧ ((∃ fault, LockCourse setting job fault h) ∨
      Begun job h ∧ setting.settings.softCatchUpBudget? = none)

section
variable (setting : Setting) (job : Job)

instance : Nonempty Fault :=
  ⟨.shuttingDown⟩

theorem courses_permitted {ι : Type} [Nonempty ι] (fault : ι → Option Fault) :
    Permits (OnCourse setting job) fun h => ∀ i, LockCourse setting job (fault i) h where
  toward := fun course => .inl ⟨_, _, _, course (Classical.arbitrary ι)⟩
  halting := fun reason course => .inr ⟨⟨reason, rfl⟩, .inl ⟨_, course (Classical.arbitrary ι)⟩⟩
  settled := fun course outside i => (course i).settled outside

theorem outside_stable :
    Stage.Stable (OnCourse setting job) Call.Outside
      fun _ h => ∀ e ∈ h, Call.Outside e.call where
  allowed := fun _ _ _ outside last => (courses_permitted setting job some).next
    (fun fault => .unbegun fault fun e mem => (outside e mem).preliminary)
    fun _ fault => .unbegun fault fun e mem =>
      (forall_mem_concat outside last e mem).preliminary
  kept := fun _ _ _ _ outside last => forall_mem_concat outside last

theorem keeps_copying {j : Journal} {h : History surroundings} (endpoint : String)
    (start : ∀ e ∈ h, Call.Outside e.call) :
    (copyShard setting job endpoint).Keeps (OnCourse setting job) (fun _ _ h => Begun job h)
      (fun fault _ h => LockCourse setting job (some fault) h) j h := by
  have permits := courses_permitted setting job some
  have stable := outside_stable setting job
  have unbegun {h : History surroundings} (fault : Fault)
      (before : ∀ e ∈ h, Preliminary job e) : LockCourse setting job (some fault) h :=
    .unbegun fault before
  rw [keeps_copyShard]
  intro j naming named opening opened copying
  have unnamed (fault : Fault) : ∀ e ∈ h ++ [⟨naming, .error fault⟩], Call.Outside e.call :=
    forall_mem_concat start trivial
  have named' : ∀ e ∈ named, Call.Outside e.call := forall_mem_concat start trivial
  have opened' : ∀ e ∈ opened, Call.Outside e.call := forall_mem_concat named' trivial
  have before : ∀ e ∈ opened, Preliminary job e := fun e mem => (opened' e mem).preliminary
  have failed (fault : Fault) : ∀ e ∈ opened ++ [⟨copying, .error fault⟩], Preliminary job e :=
    forall_mem_concat before trivial
  refine ⟨stable.allowed j _ _ start trivial, fun fault => ?unnamed,
    stable.allowed j _ _ named' trivial, ?copying, fun fault => ?failed, fun outcome =>
      ⟨fun vanished => ?vanished, fun copied => ?copied⟩⟩
  case unnamed =>
    exact unbegun _ fun e mem => (unnamed fault e mem).preliminary
  case copying => exact permits.towardLast (r := .error .shuttingDown) fun fault => unbegun _ (failed _)
  case failed =>
    have judges := (classify_uses setting job fault).mono fun _ => Call.Looks.outside
    exact (judges.preserves permits.stable j _ fun _ => unbegun _ (failed fault)).mono
      (fun fault _ _ course => course fault) fun fault _ _ course => course fault
  case vanished => exact unbegun _ (forall_mem_concat before vanished)
  case copied => exact .intro opened' _ _ (not_not.mp copied)

theorem work_keeps_course {j : Journal} {h : History surroundings}
    (start : ∀ e ∈ h, Call.Outside e.call) :
    (work setting job).Keeps (OnCourse setting job) (fun _ _ => LockCourse setting job none)
      (fun fault _ => LockCourse setting job (some fault)) j h := by
  have permits := courses_permitted setting job some
  have permits' := courses_permitted setting job (id : Option Fault → Option Fault)
  have stable := outside_stable setting job
  have unbegun (fault : Fault) (_ : Journal) (h : History surroundings)
      (outside : ∀ e ∈ h, Call.Outside e.call) : LockCourse setting job (some fault) h :=
    .unbegun fault fun e mem => (outside e mem).preliminary
  rw [work_eq]
  have stoodBy := (standBy_bides setting job).mono fun _ => Call.Bides.outside
  refine stoodBy.andThen stable start unbegun fun _ j h start => ?_
  have prepared := (prepare_uses setting job).mono fun _ => Call.Prepares.outside
  refine prepared.andThen stable start unbegun fun endpoint j h start => ?_
  rw [Stage.keeps_bind]
  refine (keeps_copying setting job endpoint start).mono (fun syncerId j h begun => ?_)
    fun _ _ _ => id
  rw [Stage.keeps_bind]
  refine (keeps_catchUpSoftly setting job endpoint permits
    (Q := fun _ _ h' => ∃ budget rounds, setting.settings.softCatchUpBudget? = some budget ∧
      Finished setting.settings.softLockMaxRounds.toNat rounds ∧
      h' = h ++ eventsOf setting job endpoint budget rounds)
    (fun unaffordable => .inr ⟨⟨_, rfl⟩, .inr ⟨begun, unaffordable⟩⟩)
    (fun budget es affords cut fault => .cutShort fault begun affords cut)
    fun budget rounds j affords finished => ⟨budget, rounds, affords, finished, rfl⟩).mono ?_
      fun fault _ _ course => course fault
  rintro _ j _ ⟨budget, rounds, affords, finished, rfl⟩
  have stopped : LockCourse setting job (some .shuttingDown)
      (h ++ eventsOf setting job endpoint budget rounds ++ [⟨.stopping, true⟩]) := by
    rw [List.append_assoc]
    exact .stopped begun affords finished (List.forall_mem_nil _)
  rw [Stage.keeps_bind, Stage.keeps_unlessStopping]
  refine ⟨.inl ⟨_, _, _, stopped⟩, stopped, ?_⟩
  refine (keeps_catchUpHard setting job endpoint permits' syncerId fun es hard fault => ?_).mono
    (fun _ _ _ course => course none) fun fault _ _ course => course (some fault)
  rw [List.append_assoc, List.append_assoc]
  exact .locked fault begun affords finished hard

theorem run_keeps_course :
    (run setting job).Keeps (OnCourse setting job)
      (fun report => LockCourse setting job report.fault) [] := by
  have stable (fault : Option Fault) : Stage.Stable (OnCourse setting job) (Call.Closes job)
      fun _ => LockCourse setting job fault := by
    have permits := courses_permitted setting job fun _ : Unit => fault
    refine ⟨fun j h c course closes => ?_, fun j h c r course closes => ?_⟩
    · exact permits.stable.allowed j h c (fun _ => course) closes.assists.outside
    · exact course.settled closes.assists.outside
  have begins := outside_stable setting job
  refine (keeps_run_of_stable setting job ?_ stable fun began => ?_).mono ?_
  · exact begins.allowed {} [] .now (List.forall_mem_nil _) trivial
  · exact work_keeps_course setting job
      (begins.kept {} [] .now began (List.forall_mem_nil _) trivial)
  · rintro _ h ⟨_, _, ⟨_, rfl⟩, course⟩
    exact course

end

section
variable (setting : Setting) (job : Job) (endpoint : String)

def RoundsEnded (r : Except Fault Unit) (h : History surroundings) : Prop :=
  ∃ budget, setting.settings.softCatchUpBudget? = some budget ∧
    match r with
    | .ok () => ∃ rounds, Finished setting.settings.softLockMaxRounds.toNat rounds ∧
        h = eventsOf setting job endpoint budget rounds
    | .error _ => CutShort setting job endpoint budget setting.settings.softLockMaxRounds.toNat h

theorem catchUpSoftly_ends {j : Journal} {es : History surroundings}
    {r : Except Fault Unit × Journal}
    (runs : Runs ((catchUpSoftly setting job endpoint).run.run j) es r) :
    RoundsEnded setting job endpoint r.1 es := by
  have permits : Permits (fun _ _ => True) fun h =>
      RoundsEnded setting job endpoint (.error .shuttingDown) h := by
    refine ⟨fun _ => trivial, fun _ _ => trivial, ?_⟩
    rintro h e ⟨budget, affords, cut⟩ outside
    exact ⟨budget, affords, cut.settled outside⟩
  have k := keeps_catchUpSoftly setting job endpoint permits (h := []) (j := j)
    (Q := fun _ _ => RoundsEnded setting job endpoint (.ok ())) (fun _ => trivial)
    (fun budget es affords cut => ⟨budget, affords, cut⟩)
    fun budget rounds j affords finished => ⟨budget, affords, rounds, finished, rfl⟩
  obtain ⟨fault | _, j⟩ := r <;> exact Program.Keeps.ended k runs

/-- If the phase in which the log is followed in rounds ends without a fault, its rounds are
finished, and otherwise they are cut short; either way they are no more than are allowed. Every
attempt takes this course, call by call: no lock is started on after a round that fails, and after
the last one, or where no round is allowed, the hard lock is, unless the server stops. And so an
attempt, complete or not, makes no more requests, copies and ends of the log than it is allowed. -/
theorem run_bounds_rounds :
    (∀ endpoint j es r, Runs ((catchUpSoftly setting job endpoint).run.run j) es r →
      RoundsEnded setting job endpoint r.1 es) ∧
    (∀ es c next, Steps (run setting job) es (.call c next) → OnCourse setting job es c) ∧
    (∀ es report, Runs (run setting job) es report → LockCourse setting job report.fault es) ∧
    ∀ es q, Steps (run setting job) es q →
      ∀ k, spent k es ≤ allowance setting.settings.softLockMaxRounds.toNat k := by
  have course := run_keeps_course setting job
  refine ⟨fun endpoint j es r => catchUpSoftly_ends setting job endpoint, ?called, ?ended, ?spent⟩
  case called => exact fun es c next steps => course.allowed steps
  case ended => exact fun es report runs => course.ended runs
  case spent => exact fun es q steps => spent_le_allowance setting job steps

end

def weary : (c : Call) → Option c.Reply
  | .catchUp _ start _ _ => some (.ok ⟨start + 10, true⟩)
  | c => calm c

theorem wearyRun_bounds_rounds :
    (∃ es j, Runs ((catchUpSoftly calmSetting calmJob "tcp://L").run.run {}) es (.ok (), j) ∧
      es.length = 10 ∧ RoundsEnded calmSetting calmJob "tcp://L" (.ok ()) es) ∧
    ∃ es report, Runs (run calmSetting calmJob) es report ∧
      LockCourse calmSetting calmJob report.fault es ∧
      (∃ c next, Steps (run calmSetting calmJob) (es.take 25) (.call c next) ∧
        OnCourse calmSetting calmJob (es.take 25) c) ∧
      spent .catchUp es = 2 ∧ spent .leader es = 11 ∧ ∀ k, spent k es ≤ allowance 2 k := by
  have phase : (((catchUpSoftly calmSetting calmJob "tcp://L").run.run {}).follow weary).map
      (fun (es, r, _) => (es.length, faultOf r)) = some (10, none) := by decide +kernel
  have attempt : ((run calmSetting calmJob).follow weary).map (fun (es, _) =>
      (es[25]?.isSome, spent .catchUp es, spent .leader es)) = some (true, 2, 11) := by
    decide +kernel
  have law := run_bounds_rounds calmSetting calmJob
  constructor
  · obtain ⟨⟨es, fault | _, j⟩, follows, same⟩ := Option.map_eq_some_iff.mp phase
    · exact nomatch congrArg Prod.snd same
    · have runs := Program.runs_of_follow follows
      exact ⟨es, j, runs, congrArg Prod.fst same, law.1 _ _ _ _ runs⟩
  · obtain ⟨⟨es, report⟩, follows, same⟩ := Option.map_eq_some_iff.mp attempt
    have runs := Program.runs_of_follow follows
    obtain ⟨e, found⟩ := Option.isSome_iff_exists.mp (congrArg Prod.fst same)
    obtain ⟨next, steps⟩ := Steps.nth runs found
    exact ⟨es, report, runs, law.2.2.1 _ _ runs, ⟨e.call, next, steps, law.2.1 _ _ _ steps⟩,
      congrArg (·.2.1) same, congrArg (·.2.2) same, law.2.2.2 _ _ runs⟩

end FollowerSync.Attempt
