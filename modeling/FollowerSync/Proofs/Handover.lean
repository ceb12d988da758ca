import FollowerSync.Proofs.Books

/-!
# Handing a job over

An attempt that hands its job over leaves the shard locked, for the attempt that is to take the job
up. Whether the job is in fact to be run again shows in what was called: either the attempt put it
into the queue, or it was told by an answer that somebody handed the job back.
-/

set_option autoImplicit false

namespace FollowerSync.Attempt
open Maintenance Leader

def decisiveFault : Event surroundings → Option Fault
  | ⟨.currentServers _, .error fault⟩ | ⟨.serverEndpoint _, .error fault⟩
  | ⟨.lookupShard _, .error fault⟩ | ⟨.documentCount, .error fault⟩
  | ⟨.recountDocuments, .error fault⟩ | ⟨.setLeader _, .error fault⟩
  | ⟨.bulkSync .., .error fault⟩ | ⟨.catchUp .., .error fault⟩ | ⟨.finalize .., .error fault⟩
  | ⟨.leader _ (.collectionCount ..) _, .error fault⟩ | ⟨.leader _ (.newLockId _) _, .error fault⟩
  | ⟨.leader _ (.acquireLock _) _, .error fault⟩
  | ⟨.leader _ (.addFollower _) _, .error fault⟩ => some fault
  | _ => none

inductive Handover where
  | resubmitted (job : Job)
  /-- An answer says that the job was handed back. -/
  | claimed
  deriving DecidableEq

def handover (e : Event surroundings) : Option Handover :=
  match (Call.operation e.call).bind queued with
  | some job => some (.resubmitted job)
  | none => if decisiveFault e = some .requeued then some .claimed else none

def handovers (h : History surroundings) : List Handover := marks handover h

def resubmission (job : Job) : Job := { job with priority := .slow }

/-- The ways in which an attempt has handed its job over that ends with this fault, if with any: one
way if the fault says so, and none otherwise. -/
def HandedOver (job : Job) (fault : Option Fault) (ways : List Handover) : Prop :=
  if fault = some .requeued then ways = [.resubmitted (resubmission job)] ∨ ways = [.claimed]
  else ways = []

def Accounted (job : Job) (fault : Fault) (h : History surroundings) : Prop :=
  HandedOver job (some fault) (handovers h)

/-- The call hands nothing over, however it is answered. -/
def Call.Discreet (c : Call) : Prop := ∀ r, handover ⟨c, r⟩ = none

section
variable {α : Type} {job : Job} {fault : Fault} {h : History surroundings}
  {e : Event surroundings}

theorem handovers_of_none (start : handovers h = []) (discreet : handover e = none) :
    handovers (h ++ [e]) = [] := marks_of_none start discreet

theorem accounted_of_ne (start : handovers h = []) (other : fault ≠ .requeued) :
    Accounted job fault h := by
  unfold Accounted HandedOver
  rwa [if_neg (mt Option.some.inj other)]

theorem accounted_shuttingDown (job : Job) (start : handovers h = []) :
    Accounted job .shuttingDown h := accounted_of_ne start nofun

theorem handovers_of_accounted (accounted : Accounted job fault h) (other : fault ≠ .requeued) :
    handovers h = [] := by
  unfold Accounted HandedOver at accounted
  rwa [if_neg (mt Option.some.inj other)] at accounted

theorem operation_of_decisive (decisive : decisiveFault e = some fault) :
    Call.operation e.call = none := by
  unfold decisiveFault at decisive
  split at decisive <;> first | rfl | cases decisive

theorem handover_of_decisive (decisive : decisiveFault e = some fault) :
    handover e = if fault = .requeued then some .claimed else none := by
  unfold handover
  rw [operation_of_decisive decisive, decisive]
  simp

theorem accounted_of_decisive (job : Job) (start : handovers h = [])
    (decisive : decisiveFault e = some fault) : Accounted job fault (h ++ [e]) := by
  have given := handover_of_decisive decisive
  by_cases requeued : fault = .requeued
  · rw [if_pos requeued] at given
    unfold Accounted HandedOver
    rw [if_pos (congrArg some requeued)]
    exact .inr (marks_of_some start given)
  · rw [if_neg requeued] at given
    exact accounted_of_ne (marks_of_none start given) requeued

theorem discreet_stable (P : List Handover → Prop) :
    Stage.Stable (fun _ _ => True) Call.Discreet fun _ h => P (handovers h) :=
  .of_marks P (fun _ _ _ => trivial) fun _ discreet => discreet

theorem accounted_stable (job : Job) (fault : Fault) :
    Stage.Stable (fun _ _ => True) Call.Discreet fun _ => Accounted job fault :=
  discreet_stable (HandedOver job (some fault))

theorem Accounted.after (accounted : Accounted job fault h) (discreet : handover e = none) :
    Accounted job fault (h ++ [e]) := by
  unfold Accounted handovers
  rwa [marks_of_none rfl discreet]

theorem discreet_of_watches (c : Call) (watches : c.Watches) : c.Discreet := by
  cases c <;> first | exact fun _ => rfl | cases watches

end

def told {α : Type} (job : Job) : Except Fault α → History surroundings → Prop
  | .ok _, h => handovers h = []
  | .error fault, h => Accounted job fault h

/-- Begun where nothing was handed over, the program accounts for the fault it fails with. -/
def Accounts {α : Type} (job : Job) (p : Act (Except Fault α)) : Prop :=
  ∀ h, handovers h = [] → p.Keeps (fun _ _ => True) (told job) h

def Faithful {α : Type} (job : Job) (s : Stage α) : Prop :=
  ∀ j h, handovers h = [] → s.Keeps (fun _ _ => True) (fun _ _ h => handovers h = [])
    (fun fault _ => Accounted job fault) j h

section
variable {α β : Type} {job : Job}

theorem accounts_call {c : Call} {next : c.Reply → Act (Except Fault α)}
    (answered : ∀ r, (∃ a, next r = .done (.ok a) ∧ handover ⟨c, r⟩ = none) ∨
      ∃ fault, next r = .done (.error fault) ∧ decisiveFault ⟨c, r⟩ = some fault) :
    Accounts job (Program.call (S := surroundings) c next) := by
  intro h start
  refine ⟨trivial, fun r => ?_⟩
  rcases answered r with ⟨a, same, discreet⟩ | ⟨fault, same, decisive⟩
  · rw [same]
    exact handovers_of_none start discreet
  · rw [same]
    exact accounted_of_decisive job start decisive

theorem faithful_pure (a : α) : Faithful job (pure a : Stage α) := fun _ _ start => start

theorem faithful_throw {fault : Fault} (other : fault ≠ .requeued) :
    Faithful job (throw fault : Stage α) := fun _ _ start => accounted_of_ne start other

theorem faithful_get : Faithful job (get : Stage Journal) := fun _ _ start => start

theorem faithful_modify (f : Journal → Journal) : Faithful job (modify f : Stage Unit) :=
  fun _ _ start => start

theorem faithful_enter (phase : Phase) : Faithful job (Stage.enter phase) := fun _ _ start => start

theorem Faithful.bind {s : Stage α} {f : α → Stage β} (first : Faithful job s)
    (rest : ∀ a, Faithful job (f a)) : Faithful job (s >>= f) := by
  intro j h start
  rw [Stage.keeps_bind]
  exact (first j h start).mono (fun a => rest a) fun _ _ _ => id

theorem faithful_act {p : Act α} (u : p.Uses Call.Discreet) : Faithful job (Stage.act p) := by
  intro j h start
  rw [Stage.keeps_act]
  exact (discreet_stable (· = [])).keeps (j := j) u start

theorem faithful_attempt {p : Act (Except Fault α)} (accounts : Accounts job p) :
    Faithful job (Stage.attempt p) := by
  intro j h start
  rw [Stage.keeps_attempt]
  refine (accounts h start).mono ?_
  rintro (fault | a) h last <;> exact last

end

section
variable {α : Type} (setting : Setting) (job : Job)

theorem fault_ne_requeued (reason : AbortReason) : reason.fault ≠ .requeued := by
  cases reason <;> exact nofun

theorem classify_accounts {fault : Fault} {j : Journal} {h : History surroundings}
    (accounted : Accounted job fault h) :
    (classify setting job fault).Keeps (fun _ _ => True) (fun fault _ => Accounted job fault)
      (fun fault _ => Accounted job fault) j h := by
  unfold classify
  split
  · exact accounted
  · rename_i counts
    have other : fault ≠ .requeued := by
      rintro rfl
      exact counts rfl
    have none := handovers_of_accounted accounted other
    have checked := (check_uses (j.plannedContext setting job)).mono discreet_of_watches
    simp only [Stage.keeps_bind, Stage.keeps_get, Stage.keeps_act]
    refine ((discreet_stable (· = [])).keeps (j := j) checked none).mono ?_
    rintro (_ | reason) h none
    · exact accounted_of_ne none other
    · exact accounted_of_ne none (fault_ne_requeued reason)

theorem throw_classified {fault : Fault} {Q : α → Journal → History surroundings → Prop}
    {j : Journal} {h : History surroundings} (accounted : Accounted job fault h) :
    (classify setting job fault >>= throw : Stage α).Keeps (fun _ _ => True) Q
      (fun fault _ => Accounted job fault) j h := by
  rw [Stage.keeps_bind]
  exact classify_accounts setting job accounted

theorem faithful_classified {p : Act (Except Fault α)} (accounts : Accounts job p) :
    Faithful job (classified setting job p) := by
  intro j h start
  unfold classified
  rw [Stage.keeps_bind, Stage.keeps_act]
  refine (accounts h start).mono ?_
  rintro (fault | a) h last
  · exact throw_classified setting job last
  · exact last

theorem faithful_unlessStopping : Faithful job Stage.unlessStopping := by
  refine .bind (faithful_act ⟨fun _ => rfl, fun _ => trivial⟩) fun stopping => ?_
  cases stopping with
  | false => exact faithful_pure ()
  | true => exact faithful_throw nofun

theorem sleepSlices_accounts (slices : List Duration) : Accounts job (sleepSlices slices) := by
  induction slices with
  | nil => exact fun h start => start
  | cons slice rest ih =>
    intro h start
    refine ⟨trivial, fun stopping => ?_⟩
    have asked := handovers_of_none start (e := ⟨.stopping, stopping⟩) rfl
    cases stopping with
    | true => exact accounted_shuttingDown job asked
    | false => exact ⟨trivial, fun _ => ih _ (handovers_of_none asked rfl)⟩

theorem sleepUnlessStopping_accounts (total step : Duration) :
    Accounts job (sleepUnlessStopping total step) := by
  intro h start
  unfold sleepUnlessStopping
  split
  · exact start
  split
  · refine ⟨trivial, fun stopping => ?_⟩
    have asked := handovers_of_none start (e := ⟨.stopping, stopping⟩) rfl
    cases stopping with
    | true => exact accounted_shuttingDown job asked
    | false => exact ⟨trivial, nofun⟩
  · exact sleepSlices_accounts job _ h start

theorem delayAfterFailures_accounts : Accounts job (delayAfterFailures setting job) := by
  intro h start
  simp only [delayAfterFailures, ask_eq, Program.bind_eq, Program.bind_call, Program.bind_done,
    Program.keeps_call, true_and]
  intro failures
  have asked := handovers_of_none start (e := ⟨.upkeep (.failures job.key), failures⟩) rfl
  rw [Program.keeps_ite]
  refine ⟨fun _ => ⟨trivial, nofun⟩, fun _ => ?_⟩
  split
  · exact asked
  · exact sleepUnlessStopping_accounts job _ _ _ asked

theorem look_accounts : Accounts job (look setting job) := by
  intro h start
  refine ⟨trivial, ?_⟩
  rintro (fault | planned)
  · exact handovers_of_none start rfl
  · have looked := handovers_of_none start (e := ⟨.plannedServers job.place, .ok planned⟩) rfl
    refine accounts_call ?_ _ looked
    rintro (fault | current)
    · exact .inr ⟨fault, rfl, rfl⟩
    · exact .inl ⟨_, rfl, rfl⟩

theorem waitForLeader_accounts (looks : Nat) : Accounts job (waitForLeader setting job looks) := by
  induction looks with
  | zero => exact fun h start => ⟨trivial, nofun⟩
  | succ looks ih =>
    intro h start
    refine ⟨trivial, fun stopping => ?_⟩
    have asked := handovers_of_none start (e := ⟨.stopping, stopping⟩) rfl
    cases stopping with
    | true => exact accounted_shuttingDown job asked
    | false =>
      change Program.Keeps _ _ (Program.bind (look setting job) _) _
      rw [Program.keeps_bind]
      refine (look_accounts setting job _ asked).mono ?_
      rintro (fault | _ | _ | reason) h last
      · exact last
      · exact last
      · exact ⟨trivial, fun _ => ih _ (handovers_of_none last rfl)⟩
      · change Accounted job (.planChanged (reason ++ ", " ++ shardInfo job)) h
        exact accounted_of_ne last nofun

theorem lookupShard_faithful : Faithful job (lookupShard job) := by
  refine .bind (faithful_attempt (accounts_call ?_)) fun found => ?_
  · rintro (fault | found)
    · exact .inr ⟨fault, rfl, rfl⟩
    · exact .inl ⟨found, rfl, rfl⟩
  · cases found with
    | false => exact faithful_throw nofun
    | true => exact faithful_pure ()

theorem documentCount_accounts : Accounts job (ask .documentCount) := by
  refine accounts_call ?_
  rintro (fault | count)
  · exact .inr ⟨fault, rfl, rfl⟩
  · exact .inl ⟨count, rfl, rfl⟩

theorem setLeader_accounts (leaderId : String) : Accounts job (ask (.setLeader leaderId)) := by
  refine accounts_call ?_
  rintro (fault | _)
  · exact .inr ⟨fault, rfl, rfl⟩
  · exact .inl ⟨(), rfl, rfl⟩

theorem readInitialCounts_faithful (endpoint : String) :
    Faithful job (readInitialCounts setting job endpoint) := by
  refine .bind (faithful_attempt (accounts_call ?_)) fun onLeader => .bind (faithful_modify _)
    fun _ => .bind (faithful_attempt (documentCount_accounts job)) fun here => faithful_modify _
  rintro (fault | count)
  · exact .inr ⟨fault, rfl, rfl⟩
  · exact .inl ⟨count, rfl, rfl⟩

theorem checkRequeue_faithful : Faithful job (checkRequeue setting job) := by
  refine .bind faithful_get fun j => ?_
  dsimp only
  split
  · exact faithful_pure ()
  · intro j h start
    rw [Stage.keeps_bind, Stage.keeps_act]
    refine ⟨trivial, fun _ => .inl ?_⟩
    exact marks_of_some start rfl

theorem startAttemptClock_faithful : Faithful job (startAttemptClock setting job) := by
  unfold startAttemptClock
  split
  · split
    · have discreet (d : Duration) := (momentAfter_uses d).mono discreet_of_watches
      exact .bind (faithful_act (discreet _)) fun deadline => faithful_modify _
    · exact faithful_pure ()
  · exact faithful_pure ()

theorem prepare_faithful : Faithful job (prepare setting job) := by
  refine .bind (faithful_enter _) fun _ => .bind (lookupShard_faithful job) fun _ =>
    .bind (faithful_attempt (accounts_call ?_)) fun endpoint =>
    .bind (readInitialCounts_faithful setting job endpoint) fun _ =>
    .bind (checkRequeue_faithful setting job) fun _ =>
    .bind (startAttemptClock_faithful setting job) fun _ =>
    .bind (faithful_act ⟨fun _ => rfl, fun _ => trivial⟩) fun _ =>
    .bind (faithful_unlessStopping job) fun _ => faithful_pure endpoint
  rintro (fault | endpoint)
  · exact .inr ⟨fault, rfl, rfl⟩
  · exact .inl ⟨endpoint, rfl, rfl⟩

theorem copyShard_faithful (endpoint : String) : Faithful job (copyShard setting job endpoint) := by
  refine .bind (faithful_enter _) fun _ => .bind (faithful_attempt (setLeader_accounts job _))
    fun _ => .bind faithful_get fun j => .bind (faithful_act ⟨fun _ => rfl, fun _ => trivial⟩)
    fun _ => .bind (faithful_classified setting job (accounts_call ?_)) fun outcome => ?_
  · rintro (fault | outcome)
    · exact .inr ⟨fault, rfl, rfl⟩
    · exact .inl ⟨outcome, rfl, rfl⟩
  · split
    · exact .bind (faithful_throw nofun) fun _ => .bind (faithful_modify _) fun _ => faithful_pure _
    · exact .bind (faithful_modify _) fun _ => faithful_pure _

theorem acquire_accounts (endpoint : String) (request : LockRequest)
    (limit cancelTimeout : Duration) :
    Accounts job (Guard.acquire endpoint request limit cancelTimeout) := by
  intro h start
  have fetched (lockId : UInt64) := handovers_of_none start
    (e := ⟨.leader endpoint (.newLockId request.database) limit, .ok lockId⟩) rfl
  rw [keeps_acquire]
  refine ⟨trivial, fun fault => accounted_of_decisive job start rfl, fun lockId => ⟨trivial, ?_, ?_⟩⟩
  · exact fun grant => handovers_of_none (fetched lockId) rfl
  · intro fault
    have refused := accounted_of_decisive job (fetched lockId) (e := ⟨.leader endpoint
      (.acquireLock { request with lockId }) limit, .error fault⟩) rfl
    -- The answer to the cancellation that may follow is passed over.
    exact ⟨fun _ => refused, fun _ => ⟨trivial, fun answer => refused.after rfl⟩⟩

theorem acquireLock_faithful (endpoint : String) (mode : LockMode) (ttl : Duration) :
    Faithful job (acquireLock setting job endpoint mode ttl) :=
  faithful_classified setting job (acquire_accounts job endpoint _ _ _)

theorem releaseQuietly_discreet (guard : Guard) : guard.releaseQuietly.Uses Call.Discreet :=
  ⟨fun _ => rfl, fun _ => trivial⟩

theorem release_accounts (guard : Guard) : Accounts job guard.release := by
  intro h start
  refine ⟨trivial, ?_⟩
  rintro (fault | _)
  · have cancelled := handovers_of_none start (e := ⟨.leader guard.endpoint (.cancelLock
      guard.database guard.lockId guard.clientId) guard.cancelTimeout, .error fault⟩) rfl
    change told job (if fault.code = .databaseNotFound then _ else _) _
    split
    · exact cancelled
    · exact accounted_of_ne cancelled nofun
  · exact handovers_of_none start rfl

theorem softRound_faithful (endpoint : String) (budget : Duration) :
    Faithful job (softRound setting job endpoint budget) := by
  refine .bind (faithful_unlessStopping job) fun _ =>
    .bind (acquireLock_faithful setting job endpoint _ _) fun guard => .bind faithful_get
    fun read j h start => ?_
  simp only [Stage.keeps_bind, Stage.keeps_act, ask_eq, Program.keeps_call, Program.keeps_done]
  refine ⟨trivial, ?_⟩
  rintro (fault | outcome)
  · have failed := accounted_of_decisive job start (e := ⟨.catchUp job.shard
      read.progress.lastLogTick budget read.context, .error fault⟩) rfl
    dsimp only
    rw [Stage.keeps_bind, Stage.keeps_act]
    refine ((accounted_stable job fault).keeps (j := j) (releaseQuietly_discreet guard) failed).mono
      fun _ h accounted => ?_
    exact throw_classified setting job accounted
  · have followed := handovers_of_none start (e := ⟨.catchUp job.shard
      read.progress.lastLogTick budget read.context, .ok outcome⟩) rfl
    refine Faithful.bind (faithful_attempt (release_accounts job guard)) (fun _ => ?_) j _ followed
    exact .bind (faithful_modify _) fun _ => faithful_pure outcome.timedOut

theorem catchUpSoftly_faithful (endpoint : String) :
    Faithful job (catchUpSoftly setting job endpoint) :=
  catchUpSoftly_leads setting job endpoint (fun _ _ => id) (fun _ _ _ => trivial)
    (softRound_faithful setting job endpoint)

theorem finalizeAndRegister_faithful (endpoint : String) (syncerId lockId : UInt64) :
    Faithful job (finalizeAndRegister setting job endpoint syncerId lockId) := by
  refine .bind (.bind faithful_get fun j => .bind (faithful_attempt (setLeader_accounts job _))
    fun _ => faithful_act ⟨fun _ => rfl, fun _ => trivial⟩) fun _ => .bind ?finalized fun _ =>
    .bind (faithful_enter _) fun _ => .bind (faithful_attempt (documentCount_accounts job))
    fun checksum => .bind (faithful_modify _) fun _ => faithful_attempt (accounts_call ?judged)
  case finalized =>
    refine .bind faithful_get fun j => faithful_classified setting job (accounts_call ?_)
    rintro (fault | _)
    · exact .inr ⟨fault, rfl, rfl⟩
    · exact .inl ⟨(), rfl, rfl⟩
  case judged =>
    rintro (fault | _)
    · exact .inr ⟨fault, rfl, rfl⟩
    · exact .inl ⟨(), rfl, rfl⟩

theorem repairChecksum_faithful (endpoint : String) :
    Faithful job (repairChecksum setting job endpoint) := by
  refine .bind (faithful_act ⟨fun _ => rfl, fun _ => trivial⟩) fun _ =>
    .bind (faithful_attempt (documentCount_accounts job)) fun old =>
    .bind (faithful_attempt (accounts_call ?_)) fun new => ?_
  · rintro (fault | count)
    · exact .inr ⟨fault, rfl, rfl⟩
    · exact .inl ⟨count, rfl, rfl⟩
  · split
    · exact .bind (faithful_act ⟨fun _ => rfl, fun _ => trivial⟩) fun _ => faithful_pure _
    · exact faithful_pure _

theorem mismatch_ne_requeued (fault : Fault) : mismatch fault ≠ .requeued := by
  cases fault <;> exact nofun

theorem concludeHardLock_accounts {endpoint : String} {fault : Fault}
    {Q : Unit → Journal → History surroundings → Prop} {j : Journal} {h : History surroundings}
    (accounted : Accounted job fault h) :
    (concludeHardLock setting job endpoint (.error fault)).Keeps (fun _ _ => True) Q
      (fun fault _ => Accounted job fault) j h := by
  simp only [concludeHardLock, Stage.keeps_bind, Stage.keeps_get, Stage.keeps_ite,
    Stage.keeps_throw]
  refine ⟨fun repairs => ?_, fun _ => accounted⟩
  have other : fault ≠ .requeued := by
    rintro rfl
    cases repairs.2
  have none := handovers_of_accounted accounted other
  refine (repairChecksum_faithful setting job endpoint j h none).mono ?_ fun _ _ _ => id
  exact fun _ j h none => accounted_of_ne none (mismatch_ne_requeued fault)

theorem catchUpHard_faithful (endpoint : String) (syncerId : UInt64) :
    Faithful job (catchUpHard setting job endpoint syncerId) := by
  refine .bind (faithful_enter _) fun _ => .bind (acquireLock_faithful setting job endpoint _ _)
    fun guard => .bind (faithful_modify _) fun _ j h start => ?_
  have released := releaseQuietly_discreet guard
  simp only [Stage.keeps_bind, Stage.keeps_result, Stage.keeps_act]
  refine (finalizeAndRegister_faithful setting job endpoint syncerId guard.lockId j h start).mono
    ?_ ?_
  · exact fun _ j h none => (discreet_stable (· = [])).keeps (j := j) released none
  · intro fault j h accounted
    refine ((accounted_stable job fault).keeps (j := j) released accounted).mono ?_
    exact fun _ h accounted => concludeHardLock_accounts setting job accounted

theorem work_faithful : Faithful job (work setting job) := by
  refine .bind (faithful_attempt ?_) fun _ => .bind (faithful_enter _) fun _ =>
    .bind (faithful_attempt (delayAfterFailures_accounts setting job)) fun _ =>
    .bind (faithful_enter _) fun _ =>
    .bind (faithful_attempt (waitForLeader_accounts setting job _)) fun _ =>
    .bind (prepare_faithful setting job) fun endpoint =>
    .bind (copyShard_faithful setting job endpoint) fun syncerId =>
    .bind (catchUpSoftly_faithful setting job endpoint) fun _ =>
    .bind (faithful_unlessStopping job) fun _ =>
    catchUpHard_faithful setting job endpoint syncerId
  intro h start
  change told job job.validate h
  unfold Job.validate
  split
  · exact start
  · exact accounted_of_ne start nofun

theorem discreet_of_closes {job : Job} (c : Call) (closes : c.Closes job) : c.Discreet := by
  cases c with
  | upkeep op =>
    have closing : op ∈ _ := closes
    simp only [List.mem_cons, List.not_mem_nil, or_false] at closing
    rcases closing with rfl | rfl | rfl | rfl | rfl <;> exact fun _ => rfl
  | _ => first | exact fun _ => rfl | cases closes

theorem run_keeps_handedOver :
    (run setting job).Keeps (fun _ _ => True)
      (fun report h => HandedOver job report.fault (handovers h)) [] := by
  refine keeps_run_of_marks (P := HandedOver job) setting job (fun _ _ _ => trivial)
    discreet_of_closes ?_
  exact fun h start => work_faithful setting job {} h start

def Handover.job? : Handover → Option Job
  | .resubmitted job => some job
  | .claimed => none

theorem queued_of_handover (e : Event surroundings) :
    (Call.operation e.call).bind queued = (handover e).bind Handover.job? := by
  unfold handover
  cases (Call.operation e.call).bind queued with
  | some job => rfl
  | none =>
    dsimp only
    split <;> rfl

theorem queued_upkeeps (h : History surroundings) :
    (upkeeps h).filterMap queued = (handovers h).filterMap Handover.job? := by
  unfold upkeeps handovers marks
  rw [List.filterMap_filterMap, List.filterMap_filterMap, funext queued_of_handover]

theorem claims_iff (e : Event surroundings) :
    handover e = some .claimed ↔ decisiveFault e = some .requeued := by
  constructor
  · intro claims
    unfold handover at claims
    split at claims
    · cases claims
    · simpa using claims
  · intro decisive
    rw [handover_of_decisive decisive, if_pos rfl]

theorem claimed_iff {h : History surroundings} :
    .claimed ∈ handovers h ↔ ∃ e ∈ h, decisiveFault e = some .requeued := by
  simp only [handovers, mem_marks, claims_iff]

/-- An attempt begun on a locked shard leaves it locked if and only if it put its job into the queue
or was told that the job was handed back. So the shard stays locked without a job in the queue if
and only if it was told so. -/
theorem run_locked_iff_resubmitted {es : History surroundings} {report : Report} (store : Store)
    (runs : Runs (run setting job) es report) (locked : store.locked job.key = true) :
    let t := store.afterAll (upkeeps es)
    let resubmitted := t.requeued = store.requeued ++ [resubmission job]
    (resubmitted ∨ t.requeued = store.requeued) ∧
      (t.locked job.key = true ↔ resubmitted ∨ ∃ e ∈ es, decisiveFault e = some .requeued) ∧
      ((t.locked job.key = true ↔ resubmitted) ↔
        ¬∃ e ∈ es, decisiveFault e = some .requeued) := by
  intro t resubmitted
  have kept := ((run_keeps_unlockedLast setting job).ended runs).queue_kept
  have queue : t.requeued = store.requeued ++ (handovers es).filterMap Handover.job? := by
    rw [← queued_upkeeps]
    exact requeued_afterAll kept store
  have booked := booked_of_runs setting job runs store
  have accounted : HandedOver job report.fault (handovers es) :=
    (run_keeps_handedOver setting job).ended runs
  rw [← claimed_iff]
  unfold HandedOver at accounted
  split at accounted
  · -- The books look at the fault only, so the shard is locked whichever way the job went.
    rename_i requeued
    have still : t.locked job.key = true := (booked.handedOver requeued).2.trans locked
    rcases accounted with ways | ways
    · have appended : resubmitted := by simpa [ways, Handover.job?] using queue
      simp [ways, still, appended]
    · have unchanged : t.requeued = store.requeued := by
        simpa [ways, Handover.job?, List.filterMap_cons] using queue
      simp [ways, still, unchanged, resubmitted]
  · rename_i ended
    have unlocked : t.locked job.key = false := (booked.closed ended).2
    have unchanged : t.requeued = store.requeued := by simpa [accounted] using queue
    simp [accounted, unlocked, unchanged, resubmitted]

def outgrown (_ : History surroundings) : (c : Call) → Option c.Reply
  | .leader _ (.collectionCount ..) _ => some (.ok (1000 : UInt64))
  | _ => none

def outgrownRun : History surroundings := (troubledRun outgrown).1

theorem outgrownRun_locked_iff_resubmitted :
    ∃ (store t : Store) (report : Report), store.locked calmJob.key = true ∧
      Runs (run calmSetting calmJob) outgrownRun report ∧
      t = store.afterAll (upkeeps outgrownRun) ∧
      (¬∃ e ∈ outgrownRun, decisiveFault e = some .requeued) ∧
      t.requeued = store.requeued ++ [resubmission calmJob] ∧ t.locked calmJob.key = true := by
  have ends : (troubledRun outgrown).2.map Report.fault = some (some .requeued) := by
    decide +kernel
  obtain ⟨report, runs, _⟩ := troubledRun_ends _ ends
  let store : Store := { locked := fun _ => true }
  have unclaimed : ¬∃ e ∈ outgrownRun, decisiveFault e = some .requeued := by decide +kernel
  have appended : (store.afterAll (upkeeps outgrownRun)).requeued =
      store.requeued ++ [resubmission calmJob] := by decide +kernel
  have law := run_locked_iff_resubmitted calmSetting calmJob store runs rfl
  exact ⟨store, _, report, rfl, runs, rfl, unclaimed, appended,
    (law.2.2.mpr unclaimed).mpr appended⟩

def handingBack (_ : History surroundings) : (c : Call) → Option c.Reply
  | .bulkSync .. => some (.error .requeued)
  | _ => none

def handedBackRun : History surroundings := (troubledRun handingBack).1

/-- The shard stays locked, and nobody is to take the job up. -/
theorem handedBackRun_strands_lock :
    ∃ (store t : Store) (report : Report), store.locked calmJob.key = true ∧
      Runs (run calmSetting calmJob) handedBackRun report ∧
      t = store.afterAll (upkeeps handedBackRun) ∧ t.locked calmJob.key = true ∧
      t.requeued = store.requeued := by
  have ends : (troubledRun handingBack).2.map Report.fault = some (some .requeued) := by
    decide +kernel
  obtain ⟨report, runs, fault⟩ := troubledRun_ends _ ends
  let store : Store := { locked := fun _ => true }
  have unchanged : (store.afterAll (upkeeps handedBackRun)).requeued = store.requeued := by
    decide +kernel
  have still := ((booked_of_runs calmSetting calmJob runs store).handedOver fault).2
  exact ⟨store, _, report, rfl, runs, rfl, still, unchanged⟩

end

end FollowerSync.Attempt
