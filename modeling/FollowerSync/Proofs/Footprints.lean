import FollowerSync.Proofs.Stages

set_option autoImplicit false

namespace FollowerSync.Attempt

/-- Calls of which no answer, however bad, is the end of an attempt. -/
def Call.Watches : Call → Prop
  | .plannedServers _ | .fetchVersion _ | .awaitVersion .. | .stopping | .now | .sleep _
  | .suspend _ | .draw | .halt _ => True
  | _ => False

def Call.Looks : Call → Prop
  | .plannedServers _ | .currentServers _ | .serverEndpoint _ | .fetchVersion _
  | .awaitVersion .. | .stopping | .now | .sleep _ | .suspend _ | .draw | .halt _ => True
  | _ => False

def Call.Pauses : Call → Prop
  | .stopping | .sleep _ | .halt _ => True
  | _ => False

def Call.Scouts : Call → Prop
  | .plannedServers _ | .currentServers _ => True
  | c => c.Pauses

def Call.Delays (job : Job) : Call → Prop
  | .upkeep op => op = .failures job.key
  | c => c.Pauses

def Call.Bides (job : Job) : Call → Prop
  | .upkeep op => op = .failures job.key
  | c => c.Scouts

def Call.Waits (job : Job) : Call → Prop
  | .upkeep op => op = .failures job.key
  | c => c.Watches

def Call.Prepares (job : Job) : Call → Prop
  | .upkeep op => op = .requeue job .slow
  | .leader _ (.collectionCount ..) _ | .documentCount | .lookupShard _
  | .openTailingSyncer .. => True
  | c => c.Looks

def Call.Surveys (job : Job) : Call → Prop
  | .openTailingSyncer .. => False
  | c => c.Prepares job

def Call.Copies : Call → Prop
  | .setLeader _ | .openBulkSyncer _ | .bulkSync .. => True
  | c => c.Looks

def Call.Follows : Call → Prop
  | .leader _ (.newLockId _) _ | .leader _ (.acquireLock _) _ | .leader _ (.cancelLock ..) _
  | .catchUp .. => True
  | c => c.Looks

def Call.Handshakes (mode : Leader.LockMode) : Call → Prop
  | .leader _ (.acquireLock lock) _ => lock.mode = mode
  | .leader _ (.newLockId _) _ | .leader _ (.cancelLock ..) _ => True
  | _ => False

def Call.FollowsSoftly : Call → Prop
  | .leader _ (.acquireLock lock) _ => lock.mode = .soft
  | c => c.Follows

def Call.FollowsHeld : Call → Prop
  | .leader _ (.cancelLock ..) _ | .catchUp .. => True
  | c => c.Looks

def Call.Registers : Call → Prop
  | .setLeader _ | .followLeader _ | .finalize .. | .documentCount
  | .leader _ (.addFollower _) _ => True
  | c => c.Looks

def Call.Repairs : Call → Prop
  | .upkeep op => op = .countWrongChecksum
  | .documentCount | .recountDocuments | .leader _ (.recalculateCount ..) _ => True
  | _ => False

def Call.Closes (job : Job) : Call → Prop
  | .upkeep op => op ∈ [.clearFailures job.key, .recordFailure job.key, .countTimedOut,
      .advanceVersion job.key, .unlock job.key]
  | c => c.Watches

theorem Call.Watches.looks {c : Call} (watches : c.Watches) : c.Looks := by
  cases c <;> trivial

theorem Call.Pauses.scouts {c : Call} (pauses : c.Pauses) : c.Scouts := by
  cases c <;> trivial

theorem Call.Pauses.delays {c : Call} (pauses : c.Pauses) (job : Job) : c.Delays job := by
  cases c <;> trivial

theorem Call.Delays.waits {c : Call} {job : Job} (delays : c.Delays job) : c.Waits job := by
  cases c <;> trivial

theorem Call.Delays.bides {c : Call} {job : Job} (delays : c.Delays job) : c.Bides job := by
  cases c <;> trivial

theorem Call.Scouts.looks {c : Call} (scouts : c.Scouts) : c.Looks := by
  cases c <;> trivial

theorem Call.Scouts.bides {c : Call} (scouts : c.Scouts) (job : Job) : c.Bides job := by
  cases c <;> trivial

theorem Call.Looks.prepares {c : Call} (looks : c.Looks) (job : Job) : c.Prepares job := by
  cases c <;> trivial

theorem Call.Looks.copies {c : Call} (looks : c.Looks) : c.Copies := by
  cases c <;> trivial

theorem Call.Looks.follows {c : Call} (looks : c.Looks) : c.Follows := by
  cases c <;> trivial

theorem Call.Looks.followsSoftly {c : Call} (looks : c.Looks) : c.FollowsSoftly := by
  cases c <;> trivial

theorem Call.Looks.followsHeld {c : Call} (looks : c.Looks) : c.FollowsHeld := by
  cases c <;> trivial

theorem Call.FollowsHeld.followsSoftly {c : Call} (held : c.FollowsHeld) : c.FollowsSoftly := by
  cases c with
  | leader endpoint request limit => cases request <;> trivial
  | _ => exact held

theorem Call.FollowsSoftly.follows {c : Call} (softly : c.FollowsSoftly) : c.Follows := by
  cases c with
  | leader endpoint request limit => cases request <;> trivial
  | _ => exact softly

theorem Call.Handshakes.follows {mode : Leader.LockMode} {c : Call}
    (handshakes : c.Handshakes mode) : c.Follows := by
  cases c with
  | leader endpoint request limit => cases request <;> trivial
  | _ => cases handshakes

theorem Call.Handshakes.followsSoftly {c : Call} (handshakes : c.Handshakes .soft) :
    c.FollowsSoftly := by
  cases c with
  | leader endpoint request limit => cases request <;> trivial
  | _ => cases handshakes

theorem Call.Looks.registers {c : Call} (looks : c.Looks) : c.Registers := by
  cases c <;> trivial

theorem Call.Watches.closes {c : Call} (watches : c.Watches) (job : Job) : c.Closes job := by
  cases c <;> trivial

/-- Calls by which nothing is locked, copied, followed or registered and no leader is named. -/
def Call.Assists : Call → Prop
  | .leader _ (.collectionCount ..) _ | .leader _ (.recalculateCount ..) _ => True
  | .leader .. | .setLeader _ | .openTailingSyncer .. | .followLeader _ | .bulkSync .. | .catchUp ..
  | .finalize .. => False
  | _ => True

theorem Call.Looks.assists {c : Call} (looks : c.Looks) : c.Assists := by
  cases c <;> trivial

theorem Call.Waits.assists {c : Call} {job : Job} (waits : c.Waits job) : c.Assists := by
  cases c <;> trivial

theorem Call.Surveys.assists {c : Call} {job : Job} (surveys : c.Surveys job) : c.Assists := by
  cases c with
  | leader endpoint request limit => cases request <;> trivial
  | _ => trivial

theorem Call.Repairs.assists {c : Call} (repairs : c.Repairs) : c.Assists := by
  cases c with
  | leader endpoint request limit => cases request <;> trivial
  | _ => trivial

theorem Call.Closes.assists {c : Call} {job : Job} (closes : c.Closes job) : c.Assists := by
  cases c <;> trivial

theorem check_uses (c : Context) : c.check.Uses Call.Watches := by
  obtain ⟨deadline, plan⟩ := c
  cases deadline <;> cases plan <;>
    simp [Context.check, Context.isStopping, Context.checkLate, Context.checkPlan, Call.Watches,
      apply_ite]

theorem momentAfter_uses (d : Duration) : (momentAfter d).Uses Call.Watches := by
  simp [momentAfter, Call.Watches]

theorem sleepSlices_uses (slices : List Duration) : (sleepSlices slices).Uses Call.Pauses := by
  induction slices with
  | nil => trivial
  | cons slice rest ih => simp [sleepSlices, Call.Pauses, ih]

theorem sleepUnlessStopping_uses (total step : Duration) :
    (sleepUnlessStopping total step).Uses Call.Pauses := by
  simp [sleepUnlessStopping, Call.Pauses, sleepSlices_uses]

theorem delayAfterFailures_delays (setting : Setting) (job : Job) :
    (delayAfterFailures setting job).Uses (Call.Delays job) := by
  simp only [delayAfterFailures, ask_eq, Program.bind_eq, Program.bind_call, Program.bind_done,
    Program.uses_call]
  refine ⟨rfl, fun failures => ?_⟩
  rw [Program.uses_ite]
  refine ⟨fun _ => ⟨trivial, fun answer => answer.elim⟩, fun _ => ?_⟩
  split
  · trivial
  · exact (sleepUnlessStopping_uses _ _).mono fun c pauses => pauses.delays job

theorem delayAfterFailures_uses (setting : Setting) (job : Job) :
    (delayAfterFailures setting job).Uses (Call.Waits job) :=
  (delayAfterFailures_delays setting job).mono fun _ => Call.Delays.waits

theorem look_scouts (setting : Setting) (job : Job) : (look setting job).Uses Call.Scouts := by
  simp [look, Call.Scouts, forall_answer]

theorem waitForLeader_scouts (setting : Setting) (job : Job) (looks : Nat) :
    (waitForLeader setting job looks).Uses Call.Scouts := by
  induction looks with
  | zero => simp [waitForLeader, Call.Scouts, Call.Pauses]
  | succ looks ih =>
    simp only [waitForLeader, ask_eq, Program.bind_eq, Program.bind_call, Program.bind_done,
      Program.uses_call]
    refine ⟨trivial, fun stopping => ?_⟩
    rw [Program.uses_ite]
    refine ⟨fun _ => trivial, fun _ => (look_scouts setting job).bind ?_⟩
    rintro (fault | _ | _ | reason)
    · trivial
    · trivial
    · exact ⟨trivial, fun _ => ih⟩
    · trivial

theorem waitForLeader_uses (setting : Setting) (job : Job) (looks : Nat) :
    (waitForLeader setting job looks).Uses Call.Looks :=
  (waitForLeader_scouts setting job looks).mono fun _ => Call.Scouts.looks

theorem fetchVersion_uses (limit : Duration) (stopAt : Instant) (tries fuel : Nat) :
    (fetchVersion limit stopAt tries fuel).Uses Call.Watches := by
  induction fuel generalizing tries with
  | zero => trivial
  | succ fuel ih => simp [fetchVersion, Call.Watches, forall_answer, ih]

section
variable {α β : Type} {K : Call → Prop} {f : Future α} {g : Future β}

theorem Future.before_uses (polls : ∀ n, (f.poll n).Uses K) (looks : K .now) (deadline : Instant)
    (n : Nat) : ((f.before deadline).poll n).Uses K := by
  refine (polls n).bind ?_
  rintro (_ | a)
  · exact ⟨looks, fun now => Program.uses_ite.mpr ⟨fun _ => trivial, fun _ => trivial⟩⟩
  · trivial

theorem Future.orElse_uses {first second : Act (Option α)} (uses : first.Uses K)
    (uses' : second.Uses K) : (Future.orElse first second).Uses K := by
  refine uses.bind ?_
  rintro (_ | a)
  · exact uses'
  · trivial

theorem Future.either_uses (left : ∀ n, (f.poll n).Uses K) (right : ∀ n, (g.poll n).Uses K)
    (draws : K .draw) (n : Nat) : ((f.either g).poll n).Uses K := by
  have left' := (left n).bind (f := fun a => .done (a.map (Sum.inl (β := β)))) fun _ => trivial
  have right' := (right n).bind (f := fun b => .done (b.map (Sum.inr (α := α)))) fun _ => trivial
  exact ⟨draws, fun first => Program.uses_ite.mpr
    ⟨fun _ => orElse_uses left' right', fun _ => orElse_uses right' left'⟩⟩

theorem Future.await_uses (polls : ∀ n, (f.poll n).Uses K) (suspends : K (.suspend f.wakers))
    (n fuel : Nat) : (f.await n fuel).Uses K := by
  induction fuel generalizing n with
  | zero => trivial
  | succ fuel ih =>
    refine (polls n).bind ?_
    rintro (_ | a)
    · exact ⟨suspends, fun _ => ih (n + 1)⟩
    · trivial

end

theorem loadVersion_uses {K : Call → Prop} {version : UInt64}
    (polls : ∀ n, K (.awaitVersion version n)) (stops : K .stopping) (looks : K .now)
    (draws : K .draw) (suspends : ∀ wakers, K (.suspend wakers)) (limit wait : Duration) :
    (loadVersion version limit wait).Uses K := by
  have loading (n : Nat) : ((Future.loading version).poll n).Uses K := ⟨polls n, fun _ => trivial⟩
  have stopping (n : Nat) : (Future.stopping.poll n).Uses K := by
    simp [Future.stopping, stops]
  exact ⟨looks, fun now => (Future.await_uses (Future.either_uses
    (Future.before_uses loading looks _) stopping draws) (suspends _) _ _).bind fun _ => trivial⟩

theorem awaitCurrentVersion_uses (wait : Duration) :
    (awaitCurrentVersion wait).Uses Call.Watches := by
  refine (momentAfter_uses wait).bind fun stopAt => ?_
  split
  · simp [Call.Watches]
  · refine (fetchVersion_uses ..).bind ?_
    rintro (_ | version)
    · trivial
    · exact ⟨trivial, fun now =>
        loadVersion_uses (fun _ => trivial) trivial trivial trivial (fun _ => trivial) _ _⟩

section
variable {α : Type} (setting : Setting) (job : Job)

theorem classify_uses (fault : Fault) : (classify setting job fault).Uses Call.Looks := by
  unfold classify
  split
  · simp
  · have looks (c : Context) := (check_uses c).mono fun _ => Call.Watches.looks
    refine .bind Stage.uses_get fun j => .bind (Stage.uses_act (looks _)) ?_
    rintro (_ | reason) <;> simp

theorem classified_uses {K : Call → Prop} {p : Act (Except Fault α)} (u : p.Uses K)
    (looks : ∀ c : Call, c.Looks → K c) : (classified setting job p).Uses K := by
  refine .bind (Stage.uses_act u) ?_
  rintro (fault | a)
  · exact .bind ((classify_uses setting job fault).mono looks) fun _ => Stage.uses_throw _
  · exact Stage.uses_pure a

section
variable {ok : History surroundings → Call → Prop} {I : Journal → History surroundings → Prop}

theorem classify_preserves (stable : Stage.Stable ok Call.Looks I) (fault : Fault) :
    (classify setting job fault).Preserves ok I := by
  unfold classify
  split
  · exact Stage.preserves_pure fault
  · have looks (c : Context) := (check_uses c).mono fun _ => Call.Watches.looks
    refine .bind Stage.preserves_get fun j => .bind (Stage.preserves_act stable (looks _)) ?_
    rintro (_ | reason) <;> simp

theorem keeps_classified (stable : Stage.Stable ok Call.Looks I) {p : Act (Except Fault α)}
    {Q : α → Journal → History surroundings → Prop} {j : Journal} {h : History surroundings}
    (k : p.Keeps ok (fun r h => match r with
      | .ok a => Q a j h
      | .error _ => I j h) h) :
    (classified setting job p).Keeps ok Q (fun _ => I) j h := by
  unfold classified
  simp only [Stage.keeps_bind, Stage.keeps_act]
  refine k.mono ?_
  rintro (fault | a) h last
  · simp only [Stage.keeps_bind, Stage.keeps_throw]
    exact classify_preserves setting job stable fault j h last
  · exact last

theorem classified_preserves {K : Call → Prop} (stable : Stage.Stable ok K I)
    (looks : ∀ c : Call, c.Looks → K c) {p : Act (Except Fault α)} (u : p.Uses K) :
    (classified setting job p).Preserves ok I := by
  intro j h start
  refine keeps_classified setting job (stable.mono looks) ((stable.keeps u start).mono ?_)
  rintro (fault | a) h last <;> exact last

end

theorem startAttemptClock_uses : (startAttemptClock setting job).Uses Call.Looks := by
  unfold startAttemptClock
  split
  · split
    · refine .bind (Stage.uses_act ((momentAfter_uses _).mono ?_)) fun _ => Stage.uses_modify _
      exact fun c => Call.Watches.looks
    · exact Stage.uses_pure ()
  · exact Stage.uses_pure ()

section
variable {K : Call → Prop}

theorem lookupShard_uses (called : K (.lookupShard job.key)) : (lookupShard job).Uses K := by
  refine .bind (Stage.uses_attempt ⟨called, fun _ => trivial⟩) fun found => ?_
  cases found <;> simp

theorem readInitialCounts_uses (endpoint : String)
    (onLeader : K (.leader endpoint (.collectionCount job.database job.shard)
      setting.settings.leaderCountTimeout)) (here : K .documentCount) :
    (readInitialCounts setting job endpoint).Uses K := by
  refine .bind (Stage.uses_attempt ⟨onLeader, fun _ => trivial⟩) fun counted => ?_
  refine .bind (Stage.uses_modify _) fun _ => ?_
  exact .bind (Stage.uses_attempt ⟨here, fun _ => trivial⟩) fun counted => Stage.uses_modify _

theorem checkRequeue_uses (requeues : K (.upkeep (.requeue job .slow))) :
    (checkRequeue setting job).Uses K := by
  refine .bind Stage.uses_get fun j => ?_
  dsimp only
  split
  · simp
  · exact .bind (Stage.uses_act ⟨requeues, fun _ => trivial⟩) fun _ => Stage.uses_throw _

end

theorem unlessStopping_uses : Stage.unlessStopping.Uses Call.Looks := by
  refine .bind (Stage.uses_act ⟨trivial, fun _ => trivial⟩) fun stopping => ?_
  cases stopping <;> simp

theorem prepare_uses : (prepare setting job).Uses (Call.Prepares job) := by
  refine .bind (Stage.uses_enter _) fun _ => .bind (lookupShard_uses job trivial) fun _ =>
    .bind ?endpoint fun endpoint => .bind ?counts fun _ => .bind (checkRequeue_uses setting job rfl)
      fun _ => .bind ?clock fun _ => .bind ?tailing fun _ => .bind ?stopping fun _ =>
        Stage.uses_pure endpoint
  case endpoint => exact Stage.uses_attempt ⟨trivial, fun _ => trivial⟩
  case counts => exact readInitialCounts_uses setting job endpoint trivial trivial
  case clock => exact (startAttemptClock_uses setting job).mono fun _ looks => looks.prepares job
  case tailing => exact Stage.uses_act ⟨trivial, fun _ => trivial⟩
  case stopping => exact unlessStopping_uses.mono fun _ looks => looks.prepares job

/-- The work up to the preparation: the attempt waits out the shard's failures, and then until the
planned leader serves the shard. -/
def standBy : Stage Unit := do
  Stage.attempt (return job.validate)
  Stage.enter .backoff
  Stage.attempt (delayAfterFailures setting job)
  Stage.enter .waitForLeader
  Stage.attempt (waitForLeader setting job setting.patience)

theorem work_eq : work setting job = (do
    standBy setting job
    let endpoint ← prepare setting job
    let syncerId ← copyShard setting job endpoint
    catchUpSoftly setting job endpoint
    Stage.unlessStopping
    catchUpHard setting job endpoint syncerId) := by
  simp [work, synchronize, standBy]

theorem standBy_preserves {ok : History surroundings → Call → Prop}
    {I : Journal → History surroundings → Prop} (waits : Stage.Stable ok (Call.Waits job) I)
    (looks : Stage.Stable ok Call.Looks I)
    (kept : ∀ j phase h, I j h → I { j with phase } h) : (standBy setting job).Preserves ok I := by
  have entered (phase : Phase) : (Stage.enter phase).Preserves ok I :=
    Stage.preserves_modify fun j h => kept j phase h
  refine .bind (Stage.preserves_attempt looks (Program.uses_done _)) fun _ =>
    .bind (entered .backoff) fun _ => .bind ?delayed fun _ => .bind (entered .waitForLeader) fun _ =>
    ?waited
  case delayed => exact Stage.preserves_attempt waits (delayAfterFailures_uses setting job)
  case waited => exact Stage.preserves_attempt looks (waitForLeader_uses setting job _)

theorem standBy_bides : (standBy setting job).Uses (Call.Bides job) := by
  refine .bind (Stage.uses_attempt trivial) fun _ => .bind (Stage.uses_enter _) fun _ =>
    .bind ?delayed fun _ => .bind (Stage.uses_enter _) fun _ => ?waited
  case delayed =>
    exact Stage.uses_attempt ((delayAfterFailures_delays setting job).mono fun _ =>
      Call.Delays.bides)
  case waited =>
    exact Stage.uses_attempt ((waitForLeader_scouts setting job _).mono fun _ scouts =>
      scouts.bides job)

/-- The preparation up to the opening of the syncer that is to follow the log. -/
def survey : Stage String := do
  Stage.enter .prepare
  lookupShard job
  let endpoint ← Stage.attempt (ask (.serverEndpoint job.leader))
  readInitialCounts setting job endpoint
  checkRequeue setting job
  startAttemptClock setting job
  return endpoint

theorem prepare_eq : prepare setting job = survey setting job >>= fun endpoint => do
    Stage.act (ask (.openTailingSyncer job.database endpoint job.leader))
    Stage.unlessStopping
    return endpoint := by
  simp [prepare, survey]

section
variable {ok : History surroundings → Call → Prop} {I : Journal → History surroundings → Prop}

theorem survey_preserves (stable : Stage.Stable ok (Call.Surveys job) I)
    (kept : ∀ j j' h, j'.progress = j.progress → I j h → I j' h) :
    (survey setting job).Preserves ok I := by
  have noted (f : Journal → Journal) (same : ∀ j, (f j).progress = j.progress) :
      (modify f : Stage Unit).Preserves ok I :=
    Stage.preserves_modify fun j h => kept j (f j) h (same j)
  refine .bind (noted _ fun _ => rfl) fun _ => .bind ?lookup fun _ => .bind ?endpoint fun endpoint =>
    .bind ?counts fun _ => .bind ?requeue fun _ => .bind ?clock fun _ => Stage.preserves_pure endpoint
  case lookup =>
    refine .bind (Stage.preserves_attempt stable ⟨trivial, fun _ => trivial⟩) fun found => ?_
    cases found <;> simp
  case endpoint => exact Stage.preserves_attempt stable ⟨trivial, fun _ => trivial⟩
  case counts =>
    refine .bind (Stage.preserves_attempt stable ⟨trivial, fun _ => trivial⟩) fun onLeader => ?_
    refine .bind (noted _ fun _ => rfl) fun _ => ?_
    refine .bind (Stage.preserves_attempt stable ⟨trivial, fun _ => trivial⟩) fun here => ?_
    exact noted _ fun _ => rfl
  case requeue =>
    refine .bind Stage.preserves_get fun j => ?_
    dsimp only
    split
    · exact Stage.preserves_pure ()
    · refine .bind (Stage.preserves_act stable ⟨rfl, fun _ => trivial⟩) fun _ => ?_
      exact Stage.preserves_throw _
  case clock =>
    unfold startAttemptClock
    split
    · split
      · have surveys (c : Call) (watches : c.Watches) : c.Surveys job := by
          cases c <;> trivial
        refine .bind (Stage.preserves_act stable ((momentAfter_uses _).mono surveys)) fun _ => ?_
        exact noted _ fun _ => rfl
      · exact Stage.preserves_pure ()
    · exact Stage.preserves_pure ()

theorem keeps_prepare {Q : String → Journal → History surroundings → Prop}
    {E : Fault → Journal → History surroundings → Prop} {j : Journal} {h : History surroundings}
    (stable : Stage.Stable ok (Call.Surveys job) I)
    (kept : ∀ j j' h, j'.progress = j.progress → I j h → I j' h)
    (failed : ∀ fault j h, I j h → E fault j h)
    (surveyed : ∀ endpoint j h, I j h →
      let opening : Call := .openTailingSyncer job.database endpoint job.leader
      let opened := h ++ [⟨opening, ()⟩]
      ok h opening ∧ ok opened .stopping ∧ E .shuttingDown j (opened ++ [⟨.stopping, true⟩]) ∧
        Q endpoint j (opened ++ [⟨.stopping, false⟩]))
    (start : I j h) : (prepare setting job).Keeps ok Q E j h := by
  rw [prepare_eq, Stage.keeps_bind]
  refine (survey_preserves setting job stable kept j h start).mono ?_ failed
  intro endpoint j h known
  simp only [ask_eq, Stage.keeps_bind, Stage.keeps_act, Program.keeps_call, Program.keeps_done,
    Stage.keeps_unlessStopping, Stage.keeps_pure]
  have passed := surveyed endpoint j h known
  exact ⟨passed.1, fun _ => passed.2⟩

end

theorem keeps_copyShard {ok : History surroundings → Call → Prop} {j : Journal}
    {h : History surroundings} {Q : UInt64 → Journal → History surroundings → Prop}
    {E : Fault → Journal → History surroundings → Prop} (endpoint : String) :
    (copyShard setting job endpoint).Keeps ok Q E j h ↔
      let j := { j with phase := .bulkSync }
      let naming : Call := .setLeader job.leader
      let named := h ++ [⟨naming, .ok ()⟩]
      let opening : Call := .openBulkSyncer job.database
      let opened := named ++ [⟨opening, ()⟩]
      let copying : Call := .bulkSync (bulkRequest setting job endpoint j.initialFollowerCount)
        (j.plannedContext setting job)
      ok h naming ∧ (∀ fault, E fault j (h ++ [⟨naming, .error fault⟩])) ∧ ok named opening ∧
      ok opened copying ∧
      (∀ fault, (classify setting job fault).Keeps ok E E j (opened ++ [⟨copying, .error fault⟩])) ∧
      ∀ outcome : BulkOutcome,
        let copied := opened ++ [⟨copying, .ok outcome⟩]
        (outcome.processed.head? ≠ some job.shard →
          E (.shardVanished job.database job.shard) j copied) ∧
        (¬outcome.processed.head? ≠ some job.shard → Q outcome.syncerId
          { j with progress := { j.progress with lastLogTick := outcome.lastLogTick } } copied) := by
  have unit {P : Unit → Prop} : (∀ u, P u) ↔ P () := ⟨fun all => all (), fun one _ => one⟩
  simp only [copyShard, classified, ask_eq, Stage.keeps_bind, Stage.keeps_enter, Stage.keeps_attempt,
    Stage.keeps_get, Stage.keeps_act, Program.keeps_call, Program.keeps_done]
  refine and_congr_right fun _ => (forall_answer.trans And.comm).trans (and_congr_right fun _ => ?_)
  refine unit.trans (and_congr_right fun _ => unit.trans (and_congr_right fun _ => ?_))
  refine (forall_answer.trans And.comm).trans (and_congr ?_ (forall_congr' fun outcome => ?_))
  · refine forall_congr' fun fault => ?_
    rw [Stage.keeps_bind]
    rfl
  · rw [Stage.keeps_pure, Stage.keeps_ite]
    rfl

theorem copyShard_uses (endpoint : String) :
    (copyShard setting job endpoint).Uses Call.Copies := by
  refine .bind (Stage.uses_enter _) fun _ => .bind ?named fun _ => .bind Stage.uses_get fun j =>
    .bind ?opened fun _ => .bind ?copied fun outcome => ?_
  case named => exact Stage.uses_attempt ⟨trivial, fun _ => trivial⟩
  case opened => exact Stage.uses_act ⟨trivial, fun _ => trivial⟩
  case copied =>
    exact classified_uses setting job ⟨trivial, fun _ => trivial⟩ fun c looks => looks.copies
  split
  · exact .bind (Stage.uses_throw _) fun _ => .bind (Stage.uses_modify _) fun _ => Stage.uses_pure _
  · exact .bind (Stage.uses_modify _) fun _ => Stage.uses_pure _

theorem acquire_handshakes (endpoint : String) (request : Leader.LockRequest)
    (limit cancelTimeout : Duration) :
    (Guard.acquire endpoint request limit cancelTimeout).Uses (Call.Handshakes request.mode) := by
  refine ⟨trivial, ?_⟩
  rintro (fault | lockId)
  · trivial
  · refine ⟨rfl, ?_⟩
    rintro (fault | grant)
    · change Program.Uses _ (if fault.isConnectFailure then _ else _)
      rw [Program.uses_ite]
      exact ⟨fun _ => trivial, fun _ => ⟨trivial, fun _ => trivial⟩⟩
    · trivial

theorem acquire_uses (endpoint : String) (request : Leader.LockRequest)
    (limit cancelTimeout : Duration) :
    (Guard.acquire endpoint request limit cancelTimeout).Uses Call.Follows :=
  (acquire_handshakes endpoint request limit cancelTimeout).mono fun _ => Call.Handshakes.follows

theorem acquireLock_uses (endpoint : String) (mode : Leader.LockMode) (ttl : Duration) :
    (acquireLock setting job endpoint mode ttl).Uses Call.Follows :=
  classified_uses setting job (acquire_uses ..) fun _ => Call.Looks.follows

abbrev Guard.cancelling (g : Guard) : Call :=
  .leader g.endpoint (.cancelLock g.database g.lockId g.clientId) g.cancelTimeout

theorem releaseQuietly_uses (guard : Guard) : guard.releaseQuietly.Uses Call.Follows :=
  ⟨trivial, fun _ => trivial⟩

/-- What remains of a round when its lock is held. -/
def followHeld (budget : Duration) (guard : Guard) : Stage Bool := do
  let j ← get
  match ← Stage.act (ask (.catchUp job.shard j.progress.lastLogTick budget j.context)) with
  | .error fault =>
    Stage.act guard.releaseQuietly
    throw (← classify setting job fault)
  | .ok outcome =>
    Stage.attempt guard.release
    modify fun j => { j with progress := j.progress.advance outcome.tickReached }
    return outcome.timedOut

theorem keeps_followHeld {ok : History surroundings → Call → Prop} {j : Journal}
    {h : History surroundings} {Q : Bool → Journal → History surroundings → Prop}
    {E : Fault → Journal → History surroundings → Prop} (budget : Duration) (guard : Guard) :
    (followHeld setting job budget guard).Keeps ok Q E j h ↔
      let follow : Call := .catchUp job.shard j.progress.lastLogTick budget j.context
      ok h follow ∧
      (∀ fault : Fault,
        let failed := h ++ [⟨follow, .error fault⟩]
        ok failed guard.cancelling ∧ ∀ answer, (classify setting job fault).Keeps ok E E j
          (failed ++ [⟨guard.cancelling, answer⟩])) ∧
      ∀ outcome : CatchUpOutcome,
        let followed := h ++ [⟨follow, .ok outcome⟩]
        ok followed guard.cancelling ∧ ∀ answer : Except Fault Unit,
          let cancelled := followed ++ [⟨guard.cancelling, answer⟩]
          (Guard.released answer = .ok () → Q outcome.timedOut
            { j with progress := j.progress.advance outcome.tickReached } cancelled) ∧
          ∀ fault, Guard.released answer = .error fault → E fault j cancelled := by
  simp only [followHeld, ask_eq, Stage.keeps_bind, Stage.keeps_get, Stage.keeps_act,
    Program.keeps_call, Program.keeps_done]
  refine and_congr_right fun _ => (forall_answer.trans And.comm).trans (and_congr ?_ ?_)
  · refine forall_congr' fun fault => ?_
    rw [Stage.keeps_bind, Stage.keeps_act]
    refine and_congr_right fun _ => forall_congr' fun answer => ?_
    exact Stage.keeps_bind _
  · refine forall_congr' fun outcome => ?_
    rw [Stage.keeps_bind, Stage.keeps_attempt, keeps_release]
    refine and_congr_right fun _ => forall_congr' fun answer => ?_
    rcases Guard.released answer with fault | _
    · simp [Stage.ending]
    · refine ⟨fun passed => ⟨fun _ => passed, ?_⟩, fun passed => passed.1 rfl⟩
      rintro _ ⟨⟩

theorem softRound_eq (endpoint : String) (budget : Duration) :
    softRound setting job endpoint budget = (do
      Stage.unlessStopping
      let guard ← acquireLock setting job endpoint .soft setting.settings.softLockTimeout
      followHeld setting job budget guard) := rfl

theorem followHeld_uses (budget : Duration) (guard : Guard) :
    (followHeld setting job budget guard).Uses Call.FollowsHeld := by
  refine .bind Stage.uses_get fun j => .bind (Stage.uses_act ⟨trivial, fun _ => trivial⟩) ?_
  rintro (fault | outcome)
  · refine .bind (Stage.uses_act ⟨trivial, fun _ => trivial⟩) fun _ => .bind ?_ fun fault =>
      Stage.uses_throw fault
    exact (classify_uses setting job fault).mono fun _ => Call.Looks.followsHeld
  · refine .bind (Stage.uses_attempt ⟨trivial, fun _ => trivial⟩) fun _ => ?_
    exact .bind (Stage.uses_modify _) fun _ => Stage.uses_pure _

theorem softRound_uses (endpoint : String) (budget : Duration) :
    (softRound setting job endpoint budget).Uses Call.FollowsSoftly := by
  have looks (c : Call) (looks : c.Looks) := looks.followsSoftly
  rw [softRound_eq]
  refine .bind (unlessStopping_uses.mono looks) fun _ => .bind ?locked fun guard => ?followed
  case locked =>
    exact classified_uses setting job ((acquire_handshakes ..).mono fun _ =>
      Call.Handshakes.followsSoftly) looks
  case followed =>
    exact (followHeld_uses setting job budget guard).mono fun _ => Call.FollowsHeld.followsSoftly

theorem softRounds_uses (endpoint : String) (budget : Duration) (rounds : Nat) :
    (softRounds setting job endpoint budget rounds).Uses Call.FollowsSoftly := by
  induction rounds with
  | zero => exact Stage.uses_pure ()
  | succ rounds ih =>
    refine (softRound_uses setting job endpoint budget).bind fun timedOut => ?_
    cases timedOut with
    | false => exact Stage.uses_pure ()
    | true => exact ih

theorem catchUpSoftly_usesSoftly (endpoint : String) :
    (catchUpSoftly setting job endpoint).Uses Call.FollowsSoftly := by
  refine (Stage.uses_enter _).bind fun _ => ?_
  cases setting.settings.softCatchUpBudget? with
  | none => exact Stage.uses_act ((uses_stop _).mpr trivial)
  | some budget => exact softRounds_uses setting job endpoint budget _

theorem catchUpSoftly_uses (endpoint : String) :
    (catchUpSoftly setting job endpoint).Uses Call.Follows :=
  (catchUpSoftly_usesSoftly setting job endpoint).mono fun _ => Call.FollowsSoftly.follows

section
variable {ok : History surroundings → Call → Prop} {I : Journal → History surroundings → Prop}
  {E : Fault → Journal → History surroundings → Prop} (endpoint : String)

theorem softRounds_leads (budget : Duration) (rounds : Nat)
    (round : (softRound setting job endpoint budget).Leads ok I E) :
    (softRounds setting job endpoint budget rounds).Leads ok I E := by
  induction rounds with
  | zero => exact fun _ _ start => start
  | succ rounds ih =>
    refine round.bind fun timedOut => ?_
    cases timedOut with
    | false => exact fun _ _ start => start
    | true => exact ih

/-- What each round keeps, the rounds keep, however many there are. -/
theorem catchUpSoftly_leads (entered : ∀ j h, I j h → I { j with phase := .softLockCatchUp } h)
    (halts : ∀ j h, I j h → ok h (.halt .outOfRange))
    (round : ∀ budget, (softRound setting job endpoint budget).Leads ok I E) :
    (catchUpSoftly setting job endpoint).Leads ok I E := by
  have phase : (Stage.enter .softLockCatchUp).Leads ok I E := entered
  refine phase.bind fun _ => ?_
  cases setting.settings.softCatchUpBudget? with
  | none => exact fun j h start => ⟨halts j h start, nofun⟩
  | some budget => exact softRounds_leads setting job endpoint budget _ (round budget)

end

theorem finalizeAndRegister_uses (endpoint : String) (syncerId lockId : UInt64) :
    (finalizeAndRegister setting job endpoint syncerId lockId).Uses Call.Registers := by
  refine .bind ?adopted fun _ => .bind ?finalized fun _ => .bind (Stage.uses_enter _) fun _ =>
    .bind ?counted fun checksum => .bind (Stage.uses_modify _) fun _ => ?registered
  case adopted =>
    refine .bind Stage.uses_get fun j => .bind ?_ fun _ => ?_
    · exact Stage.uses_attempt ⟨trivial, fun _ => trivial⟩
    · exact Stage.uses_act ⟨trivial, fun _ => trivial⟩
  case finalized =>
    refine .bind Stage.uses_get fun j => ?_
    exact classified_uses setting job ⟨trivial, fun _ => trivial⟩ fun c looks => looks.registers
  case counted => exact Stage.uses_attempt ⟨trivial, fun _ => trivial⟩
  case registered => exact Stage.uses_attempt ⟨trivial, fun _ => trivial⟩

theorem repairChecksum_uses (endpoint : String) :
    (repairChecksum setting job endpoint).Uses Call.Repairs := by
  refine .bind ?marked fun _ => .bind ?old fun old => .bind ?new fun new => ?anew
  case marked => exact Stage.uses_act ⟨rfl, fun _ => trivial⟩
  case old => exact Stage.uses_attempt ⟨trivial, fun _ => trivial⟩
  case new => exact Stage.uses_attempt ⟨trivial, fun _ => trivial⟩
  case anew =>
    split
    · exact .bind (Stage.uses_act ⟨trivial, fun _ => trivial⟩) fun _ => Stage.uses_pure _
    · exact Stage.uses_pure _

theorem concludeHardLock_uses (endpoint : String) (result : Except Fault Unit) :
    (concludeHardLock setting job endpoint result).Uses Call.Repairs := by
  rcases result with fault | _
  · refine .bind Stage.uses_get fun j => ?_
    split
    · exact (repairChecksum_uses setting job endpoint).bind fun _ => Stage.uses_throw _
    · exact Stage.uses_throw _
  · exact Stage.uses_pure _

/-- What remains of the work when the hard lock is held. -/
def registerHeld (endpoint : String) (syncerId : UInt64) (guard : Guard) : Stage Unit := do
  modify fun j =>
    { j with term := guard.grant.term
             progress := { j.progress with upperBound := guard.grant.lastLogTick } }
  let result ← Stage.result (finalizeAndRegister setting job endpoint syncerId guard.lockId)
  Stage.act guard.releaseQuietly
  concludeHardLock setting job endpoint result

theorem catchUpHard_eq (endpoint : String) (syncerId : UInt64) :
    catchUpHard setting job endpoint syncerId = (do
      Stage.enter .hardLockFinalize
      let guard ← acquireLock setting job endpoint .hard setting.settings.hardLockTimeout
      registerHeld setting job endpoint syncerId guard) := rfl

theorem registerHeld_uses {K : Call → Prop} (endpoint : String) (syncerId : UInt64) (guard : Guard)
    (releases : K guard.cancelling) (registers : ∀ c : Call, c.Registers → K c)
    (repairs : ∀ c : Call, c.Repairs → K c) :
    (registerHeld setting job endpoint syncerId guard).Uses K := by
  refine .bind (Stage.uses_modify _) fun _ => .bind (Stage.uses_result ?registered) fun result =>
    .bind (Stage.uses_act ⟨releases, fun _ => trivial⟩) fun _ => ?concluded
  case registered => exact (finalizeAndRegister_uses setting job endpoint _ _).mono registers
  case concluded => exact (concludeHardLock_uses setting job endpoint result).mono repairs

theorem catchUpHard_uses {K : Call → Prop} (endpoint : String) (syncerId : UInt64)
    (follows : ∀ c : Call, c.Follows → K c) (registers : ∀ c : Call, c.Registers → K c)
    (repairs : ∀ c : Call, c.Repairs → K c) :
    (catchUpHard setting job endpoint syncerId).Uses K := by
  rw [catchUpHard_eq]
  refine .bind (Stage.uses_enter _) fun _ => .bind ?locked fun guard => ?held
  case locked => exact (acquireLock_uses setting job endpoint _ _).mono follows
  case held =>
    exact registerHeld_uses setting job endpoint syncerId guard (follows _ trivial) registers repairs

section
variable {ok : History surroundings → Call → Prop} {I : Journal → History surroundings → Prop}

theorem repairChecksum_preserves (stable : Stage.Stable ok Call.Repairs I) (endpoint : String) :
    (repairChecksum setting job endpoint).Preserves ok I := by
  refine .bind ?marked fun _ => .bind ?old fun old => .bind ?new fun new => ?anew
  case marked => exact Stage.preserves_act stable ⟨rfl, fun _ => trivial⟩
  case old => exact Stage.preserves_attempt stable ⟨trivial, fun _ => trivial⟩
  case new => exact Stage.preserves_attempt stable ⟨trivial, fun _ => trivial⟩
  case anew =>
    split
    · refine .bind (Stage.preserves_act stable ⟨trivial, fun _ => trivial⟩) fun _ => ?_
      exact Stage.preserves_pure _
    · exact Stage.preserves_pure _

theorem concludeHardLock_preserves (stable : Stage.Stable ok Call.Repairs I) (endpoint : String)
    (result : Except Fault Unit) : (concludeHardLock setting job endpoint result).Preserves ok I := by
  rcases result with fault | _
  · refine .bind Stage.preserves_get fun j => ?_
    split
    · refine (repairChecksum_preserves setting job stable endpoint).bind fun _ => ?_
      exact Stage.preserves_throw _
    · exact Stage.preserves_throw _
  · exact Stage.preserves_pure _

end

theorem recordOutcome_uses (fault : Option Fault) :
    (recordOutcome job fault).Uses (Call.Closes job) := by
  cases fault <;> simp [recordOutcome, Call.Closes]

theorem close_uses (fault : Option Fault) : (close setting job fault).Uses (Call.Closes job) := by
  refine (recordOutcome_uses job fault).bind fun _ => ?_
  rw [Program.uses_ite]
  refine ⟨fun _ => ?_, fun _ => trivial⟩
  refine ((awaitCurrentVersion_uses _).mono fun c watches => watches.closes job).bind fun _ => ?_
  simp [Call.Closes]

section
variable {ok : History surroundings → Call → Prop}
  {I : Option Fault → Journal → History surroundings → Prop}

def Reports (ended : Report) (j : Journal) (fault : Option Fault) : Prop :=
  ∃ elapsed, ended = report job j fault elapsed

theorem concludes_of_stable {fault : Option Fault}
    (stable : Stage.Stable ok (Call.Closes job) (I fault)) {began : Instant} {j : Journal}
    {h : History surroundings} (known : I fault j h) :
    Concludes ok (fun ended h => ∃ j fault, Reports job ended j fault ∧ I fault j h) setting job
      began fault j h := by
  refine (stable.keeps (close_uses setting job fault) known).mono fun _ h known => ?_
  refine ⟨stable.allowed j h .now known trivial, fun ended => ⟨j, fault, ⟨_, rfl⟩, ?_⟩⟩
  exact stable.kept j h .now ended known trivial

/-- What holds when the work of an attempt is done, and is not disturbed by the closing of its
books, holds of the report. -/
theorem keeps_run_of_stable (begins : ok [] .now)
    (stable : ∀ fault, Stage.Stable ok (Call.Closes job) (I fault))
    (worked : ∀ began, (work setting job).Keeps ok (fun _ => I none) (fun fault => I (some fault))
      {} [⟨.now, began⟩]) :
    (run setting job).Keeps ok
      (fun ended h => ∃ j fault, Reports job ended j fault ∧ I fault j h) [] := by
  rw [keeps_run]
  refine ⟨begins, fun began => (worked began).mono ?_ ?_⟩
  · exact fun _ j h known => concludes_of_stable setting job (stable none) known
  · exact fun fault j h known => concludes_of_stable setting job (stable (some fault)) known

end

section
variable {μ : Type} {mark : Event surroundings → Option μ}
  {ok : History surroundings → Call → Prop} {P : Option Fault → List μ → Prop}

theorem keeps_run_of_marks (allowed : ∀ h c, c.Closes job → ok h c)
    (unmarked : ∀ c, c.Closes job → ∀ r, mark ⟨c, r⟩ = none)
    (worked : ∀ h, marks mark h = [] → (work setting job).Keeps ok
      (fun _ _ h => P none (marks mark h)) (fun fault _ h => P (some fault) (marks mark h)) {} h) :
    (run setting job).Keeps ok (fun report h => P report.fault (marks mark h)) [] := by
  have stable (fault : Option Fault) := Stage.Stable.of_marks (P fault) allowed unmarked
  refine (keeps_run_of_stable setting job (allowed [] .now trivial) stable fun began => ?_).mono ?_
  · exact worked _ (marks_of_none (h := []) rfl (unmarked .now trivial began))
  · rintro _ h ⟨j, fault, ⟨elapsed, rfl⟩, known⟩
    exact known

end

end

end FollowerSync.Attempt
