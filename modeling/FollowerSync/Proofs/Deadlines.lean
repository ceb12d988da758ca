import FollowerSync.Proofs.Handover
import FollowerSync.Proofs.Interruptions

set_option autoImplicit false

namespace FollowerSync.Attempt
open Leader

section
variable (setting : Setting) (job : Job)

/-- An attempt gets a deadline if it gets that far. -/
def Limited : Prop :=
  job.syncByRevision = true ∧ setting.settings.attemptTimeout.isSome = true

/-- A lack of time comes from the deadline or was reported by an answer. -/
def Traced (fault : Fault) (h : History surroundings) : Prop :=
  fault = .attemptTimeout →
    Limited setting job ∨ ∃ e ∈ h, decisiveFault e = some .attemptTimeout

def TracedAnswer {α : Type} : Except Fault α → History surroundings → Prop
  | .ok _, _ => True
  | .error fault, h => Traced setting job fault h

def Traces {α : Type} (p : Act (Except Fault α)) : Prop :=
  ∀ h, p.Keeps (fun _ _ => True) (TracedAnswer setting job) h

def Bounded (j : Journal) : Prop := j.deadline ≠ none → Limited setting job

def Accountable {α : Type} (s : Stage α) : Prop :=
  s.Leads (fun _ _ => True) (fun j _ => Bounded setting job j) fun fault j h =>
    Bounded setting job j ∧ Traced setting job fault h

variable {setting job}
variable {α β : Type} {fault : Fault} {h : History surroundings} {e : Event surroundings}

theorem traced_of_ne (other : fault ≠ .attemptTimeout) : Traced setting job fault h :=
  fun same => absurd same other

theorem traced_of_decisive (decisive : decisiveFault e = some fault) :
    Traced setting job fault (h ++ [e]) := by
  rintro rfl
  exact .inr ⟨e, by simp, decisive⟩

theorem Traced.append (traced : Traced setting job fault h) (later : History surroundings) :
    Traced setting job fault (h ++ later) := by
  intro late
  refine (traced late).imp_right ?_
  rintro ⟨e, mem, decisive⟩
  exact ⟨e, List.mem_append_left later mem, decisive⟩

theorem traces_done {r : Except Fault α} (other : r ≠ .error .attemptTimeout) :
    Traces setting job (Program.done r) := by
  intro h
  cases r with
  | ok a => trivial
  | error fault => exact traced_of_ne fun same => other (congrArg _ same)

theorem traces_call {c : Call} {next : c.Reply → Act (Except Fault α)}
    (answered : ∀ r, Traces setting job (next r) ∨
      ∃ fault, next r = .done (.error fault) ∧ decisiveFault ⟨c, r⟩ = some fault) :
    Traces setting job (Program.call (S := surroundings) c next) := by
  intro h
  refine ⟨trivial, fun r => ?_⟩
  rcases answered r with traces | ⟨fault, same, decisive⟩
  · exact traces _
  · rw [same]
    exact traced_of_decisive decisive

theorem traces_ask {c : Call} {answer : c.Reply → Except Fault α}
    (decisive : ∀ r fault, answer r = .error fault → decisiveFault ⟨c, r⟩ = some fault) :
    Traces setting job (Program.call (S := surroundings) c fun r => .done (answer r)) := by
  refine traces_call fun r => ?_
  cases answered : answer r with
  | ok a => exact .inl fun _ => trivial
  | error fault => exact .inr ⟨fault, rfl, decisive r fault answered⟩

theorem accountable_throw (other : fault ≠ .attemptTimeout) :
    Accountable setting job (throw fault : Stage α) := fun _ _ bounded => ⟨bounded, traced_of_ne other⟩

theorem accountable_pure (a : α) : Accountable setting job (pure a : Stage α) :=
  fun _ _ bounded => bounded

theorem accountable_get : Accountable setting job (get : Stage Journal) :=
  fun _ _ bounded => bounded

theorem accountable_modify {f : Journal → Journal} (same : ∀ j, (f j).deadline = j.deadline) :
    Accountable setting job (modify f : Stage Unit) := by
  intro j h bounded
  change Bounded setting job (f j)
  unfold Bounded
  rw [same]
  exact bounded

theorem accountable_act (p : Act α) : Accountable setting job (Stage.act p) := by
  intro j h bounded
  rw [Stage.keeps_act]
  exact Program.keeps_of_forall (fun _ _ => trivial) fun _ _ => bounded

theorem accountable_attempt {p : Act (Except Fault α)} (traces : Traces setting job p) :
    Accountable setting job (Stage.attempt p) := by
  intro j h bounded
  rw [Stage.keeps_attempt]
  refine (traces h).mono ?_
  rintro (fault | a) h last
  · exact ⟨bounded, last⟩
  · exact bounded

end

section
variable (setting : Setting) (job : Job)

theorem sleepSlices_traces (slices : List Duration) : Traces setting job (sleepSlices slices) := by
  induction slices with
  | nil => exact fun _ => trivial
  | cons slice rest ih =>
    intro h
    refine ⟨trivial, fun stopping => ?_⟩
    cases stopping with
    | true => exact traced_of_ne nofun
    | false => exact ⟨trivial, fun _ => ih _⟩

theorem sleepUnlessStopping_traces (total step : Duration) :
    Traces setting job (sleepUnlessStopping total step) := by
  intro h
  unfold sleepUnlessStopping
  split
  · trivial
  split
  · refine ⟨trivial, fun stopping => ?_⟩
    cases stopping with
    | true => exact traced_of_ne nofun
    | false => exact ⟨trivial, nofun⟩
  · exact sleepSlices_traces setting job _ h

theorem delayAfterFailures_traces : Traces setting job (delayAfterFailures setting job) := by
  intro h
  simp only [delayAfterFailures, ask_eq, Program.bind_eq, Program.bind_call, Program.bind_done,
    Program.keeps_call, true_and]
  intro failures
  rw [Program.keeps_ite]
  refine ⟨fun _ => ⟨trivial, nofun⟩, fun _ => ?_⟩
  split
  · trivial
  · exact sleepUnlessStopping_traces setting job _ _ _

theorem look_traces : Traces setting job (look setting job) := by
  refine traces_call ?_
  rintro (fault | planned)
  · exact .inl fun _ => trivial
  · refine .inl (traces_call ?_)
    rintro (fault | current)
    · exact .inr ⟨fault, rfl, rfl⟩
    · exact .inl fun _ => trivial

theorem waitForLeader_traces (looks : Nat) : Traces setting job (waitForLeader setting job looks) := by
  induction looks with
  | zero => exact fun h => ⟨trivial, nofun⟩
  | succ looks ih =>
    intro h
    refine ⟨trivial, fun stopping => ?_⟩
    cases stopping with
    | true => exact traced_of_ne nofun
    | false =>
      change Program.Keeps _ _ (Program.bind (look setting job) _) _
      rw [Program.keeps_bind]
      refine (look_traces setting job _).mono ?_
      rintro (fault | _ | _ | reason) h last
      · exact last
      · trivial
      · exact ⟨trivial, fun _ => ih _⟩
      · exact traced_of_ne nofun

theorem traced_judge {j : Journal} {fault : Fault} {h : History surroundings} (m : Moment)
    (bounded : Bounded setting job j) (traced : Traced setting job fault h) :
    Traced setting job ((j.plannedContext setting job).judge m fault) h := by
  cases counts : fault.countsAsFailure with
  | false => rwa [Context.judge, if_neg (by simp [counts])]
  | true =>
    cases verdict : (j.plannedContext setting job).verdict m with
    | none => rwa [Context.judge_of_none verdict]
    | some reason =>
      rw [Context.judge_of_some counts verdict]
      cases reason with
      | deadlineExceeded =>
        have late := (Context.verdict_eq_deadlineExceeded_iff.mp verdict).2
        obtain ⟨deadline, has, _⟩ := Context.isLate_iff.mp late
        have limited : j.deadline ≠ none := by
          intro none
          cases none.symm.trans has
        exact fun _ => .inl (bounded limited)
      | _ =>
        refine traced_of_ne ?_
        rintro ⟨⟩

theorem accountable_classified {α : Type} {p : Act (Except Fault α)} (traces : Traces setting job p) :
    Accountable setting job (classified setting job p) := by
  intro j h bounded
  refine keeps_judged setting job (fun _ _ _ => trivial) ((traces h).mono ?_)
  rintro (fault | a) h last
  · exact fun m => ⟨bounded, traced_judge setting job m bounded (last.append _)⟩
  · exact bounded

theorem accountable_unlessStopping : Accountable setting job Stage.unlessStopping := by
  intro j h bounded
  rw [Stage.keeps_unlessStopping]
  exact ⟨trivial, ⟨bounded, traced_of_ne nofun⟩, bounded⟩

theorem documentCount_traces : Traces setting job (ask .documentCount) := by
  refine traces_ask ?_
  rintro _ fault rfl
  rfl

theorem setLeader_traces (leaderId : String) : Traces setting job (ask (.setLeader leaderId)) := by
  refine traces_ask ?_
  rintro _ fault rfl
  rfl

theorem startAttemptClock_accountable : Accountable setting job (startAttemptClock setting job) := by
  unfold startAttemptClock
  split
  case isFalse => exact accountable_pure ()
  case isTrue byRevision =>
    cases limited : setting.settings.attemptTimeout with
    | none => exact accountable_pure ()
    | some limit =>
      refine (accountable_act _).bind fun deadline _ _ _ _ => ⟨byRevision, ?_⟩
      rw [limited]
      rfl

theorem lookupShard_accountable : Accountable setting job (lookupShard job) := by
  refine .bind (accountable_attempt (traces_ask ?_)) fun found => ?_
  · rintro _ fault rfl
    rfl
  · cases found with
    | false => exact accountable_throw nofun
    | true => exact accountable_pure ()

theorem readInitialCounts_accountable (endpoint : String) :
    Accountable setting job (readInitialCounts setting job endpoint) := by
  refine .bind (accountable_attempt (traces_ask ?_)) fun onLeader =>
    .bind (accountable_modify fun _ => rfl) fun _ =>
    .bind (accountable_attempt (documentCount_traces setting job)) fun here =>
    accountable_modify fun _ => rfl
  rintro _ fault rfl
  rfl

theorem checkRequeue_accountable : Accountable setting job (checkRequeue setting job) := by
  refine .bind accountable_get fun j => ?_
  dsimp only
  split
  · exact accountable_pure ()
  · exact .bind (accountable_act _) fun _ => accountable_throw nofun

theorem prepare_accountable : Accountable setting job (prepare setting job) := by
  refine .bind (accountable_modify fun _ => rfl) fun _ => .bind (lookupShard_accountable setting job)
    fun _ => .bind (accountable_attempt (traces_ask ?_)) fun endpoint =>
    .bind (readInitialCounts_accountable setting job endpoint) fun _ =>
    .bind (checkRequeue_accountable setting job) fun _ =>
    .bind (startAttemptClock_accountable setting job) fun _ => .bind (accountable_act _) fun _ =>
    .bind (accountable_unlessStopping setting job) fun _ => accountable_pure endpoint
  rintro _ fault rfl
  rfl

theorem copyShard_accountable (endpoint : String) :
    Accountable setting job (copyShard setting job endpoint) := by
  refine .bind (accountable_modify fun _ => rfl) fun _ =>
    .bind (accountable_attempt (setLeader_traces setting job _)) fun _ => .bind accountable_get
    fun j => .bind (accountable_act _) fun _ =>
    .bind (accountable_classified setting job (traces_ask ?_)) fun outcome => ?_
  · rintro _ fault rfl
    rfl
  · split
    · exact .bind (accountable_throw nofun) fun _ => .bind (accountable_modify fun _ => rfl)
        fun _ => accountable_pure _
    · exact .bind (accountable_modify fun _ => rfl) fun _ => accountable_pure _

theorem acquireLock_accountable (endpoint : String) (mode : LockMode) (ttl : Duration) :
    Accountable setting job (acquireLock setting job endpoint mode ttl) := by
  refine accountable_classified setting job fun h => ?_
  rw [keeps_acquire]
  refine ⟨trivial, fun fault => traced_of_decisive rfl, fun lockId => ⟨trivial, fun _ => trivial,
    fun fault => ?_⟩⟩
  have refused {limit : Duration} {lock : LockRequest} (h : History surroundings) :
      Traced setting job fault (h ++ [⟨.leader endpoint (.acquireLock lock) limit, .error fault⟩]) :=
    traced_of_decisive rfl
  exact ⟨fun _ => refused _, fun _ => ⟨trivial, fun _ => (refused _).append _⟩⟩

theorem released_ne_attemptTimeout {answer : Except Fault Unit} {fault : Fault}
    (released : Guard.released answer = .error fault) : fault ≠ .attemptTimeout := by
  rintro rfl
  rcases answer with fault | _
  · change (if fault.code = .databaseNotFound then _ else _) = _ at released
    split at released <;> cases released
  · cases released

theorem followHeld_accountable (budget : Duration) (guard : Guard) :
    Accountable setting job (followHeld setting job budget guard) := by
  intro j h bounded
  rw [keeps_followHeld]
  intro follow
  refine ⟨trivial, fun fault => ⟨trivial, fun answer => ?unfollowed⟩,
    fun outcome => ⟨trivial, fun answer => ⟨fun _ => bounded, fun fault released => ?unreleased⟩⟩⟩
  case unfollowed =>
    have failed : Traced setting job fault (h ++ [⟨follow, .error fault⟩]) := traced_of_decisive rfl
    refine keeps_classify setting job (fun _ _ _ => trivial) fun m => ?_
    exact ⟨bounded, traced_judge setting job m bounded ((failed.append _).append _)⟩
  case unreleased =>
    exact ⟨bounded, traced_of_ne (released_ne_attemptTimeout released)⟩

theorem softRound_accountable (endpoint : String) (budget : Duration) :
    Accountable setting job (softRound setting job endpoint budget) :=
  .bind (accountable_unlessStopping setting job) fun _ =>
    .bind (acquireLock_accountable setting job endpoint .soft _) fun guard =>
    followHeld_accountable setting job budget guard

theorem catchUpSoftly_accountable (endpoint : String) :
    Accountable setting job (catchUpSoftly setting job endpoint) :=
  catchUpSoftly_leads setting job endpoint (fun _ _ => id) (fun _ _ _ => trivial)
    (softRound_accountable setting job endpoint)

theorem finalizeAndRegister_accountable (endpoint : String) (syncerId lockId : UInt64) :
    Accountable setting job (finalizeAndRegister setting job endpoint syncerId lockId) := by
  refine .bind (.bind accountable_get fun j => .bind (accountable_attempt (setLeader_traces setting job _))
    fun _ => accountable_act _) fun _ => .bind (.bind accountable_get fun j =>
    accountable_classified setting job (traces_ask ?finalized)) fun _ =>
    .bind (accountable_modify fun _ => rfl) fun _ =>
    .bind (accountable_attempt (documentCount_traces setting job)) fun checksum =>
    .bind (accountable_modify fun _ => rfl) fun _ => accountable_attempt (traces_ask ?registered)
  all_goals
    rintro _ fault rfl
    rfl

theorem repairChecksum_accountable (endpoint : String) :
    Accountable setting job (repairChecksum setting job endpoint) := by
  refine .bind (accountable_act _) fun _ =>
    .bind (accountable_attempt (documentCount_traces setting job)) fun old =>
    .bind (accountable_attempt (traces_ask ?_)) fun new => ?_
  · rintro _ fault rfl
    rfl
  · split
    · exact .bind (accountable_act _) fun _ => accountable_pure _
    · exact accountable_pure _

theorem mismatch_ne_attemptTimeout (fault : Fault) : mismatch fault ≠ .attemptTimeout := by
  cases fault <;> exact nofun

theorem concludeHardLock_traces (endpoint : String) {fault : Fault} {j : Journal}
    {h : History surroundings} (bounded : Bounded setting job j) (traced : Traced setting job fault h) :
    (concludeHardLock setting job endpoint (.error fault)).Keeps (fun _ _ => True)
      (fun _ j _ => Bounded setting job j)
      (fun fault j h => Bounded setting job j ∧ Traced setting job fault h) j h := by
  simp only [concludeHardLock, Stage.keeps_bind, Stage.keeps_get, Stage.keeps_ite,
    Stage.keeps_throw]
  refine ⟨fun _ => ?_, fun _ => ⟨bounded, traced⟩⟩
  exact (repairChecksum_accountable setting job endpoint j h bounded).mono
    (fun _ _ _ bounded => ⟨bounded, traced_of_ne (mismatch_ne_attemptTimeout fault)⟩) fun _ _ _ => id

theorem catchUpHard_accountable (endpoint : String) (syncerId : UInt64) :
    Accountable setting job (catchUpHard setting job endpoint syncerId) := by
  refine .bind (accountable_modify fun _ => rfl) fun _ =>
    .bind (acquireLock_accountable setting job endpoint .hard _) fun guard =>
    .bind (accountable_modify fun _ => rfl) fun _ j h bounded => ?_
  simp only [Stage.keeps_bind, Stage.keeps_result, Stage.keeps_act]
  refine (finalizeAndRegister_accountable setting job endpoint syncerId guard.lockId j h bounded).mono
    ?succeeded ?failed
  case succeeded => exact fun _ _ _ bounded => ⟨trivial, fun _ => bounded⟩
  case failed =>
    rintro fault j h ⟨bounded, traced⟩
    exact ⟨trivial, fun _ =>
      concludeHardLock_traces setting job endpoint bounded (traced.append _)⟩

theorem validate_ne_attemptTimeout : job.validate ≠ .error .attemptTimeout := by
  unfold Job.validate
  split <;> exact nofun

theorem work_accountable : Accountable setting job (work setting job) := by
  refine .bind (accountable_attempt (traces_done ?_)) fun _ => .bind (accountable_modify fun _ => rfl)
    fun _ => .bind (accountable_attempt (delayAfterFailures_traces setting job)) fun _ =>
    .bind (accountable_modify fun _ => rfl) fun _ =>
    .bind (accountable_attempt (waitForLeader_traces setting job _)) fun _ =>
    .bind (prepare_accountable setting job) fun endpoint =>
    .bind (copyShard_accountable setting job endpoint) fun syncerId =>
    .bind (catchUpSoftly_accountable setting job endpoint) fun _ =>
    .bind (accountable_unlessStopping setting job) fun _ =>
    catchUpHard_accountable setting job endpoint syncerId
  exact validate_ne_attemptTimeout job

theorem run_traces_timeouts : (run setting job).Keeps (fun _ _ => True) (fun report h =>
    ∀ fault, report.fault = some fault → Traced setting job fault h) [] := by
  have stable (fault : Option Fault) : Stage.Stable (fun _ _ => True) (Call.Closes job)
      fun _ h => ∀ f, fault = some f → Traced setting job f h :=
    ⟨fun _ _ _ _ _ => trivial, fun _ _ _ _ traced _ f same => (traced f same).append _⟩
  refine (keeps_run_of_stable setting job trivial stable fun began => ?_).mono ?_
  · refine (work_accountable setting job {} _ fun limited => absurd rfl limited).mono ?_ ?_
    · exact fun _ _ _ _ _ => nofun
    · rintro fault _ _ ⟨_, traced⟩ _ ⟨⟩
      exact traced
  · rintro _ h ⟨j, fault, ⟨elapsed, rfl⟩, traced⟩
    exact traced

/-- What a context of an attempt says when it is examined, given when the local documents were first
counted: the plan matters to the copying only. -/
structure Examined (counted : Instant) (copies : Bool) (context : Context) (m : Moment) : Prop where
  stopping : m.finds context.isStopping = some true ↔ m.stopping = true
  lateness : m.finds context.checkLate = some true ↔ job.syncByRevision = true ∧
    ∃ limit, setting.settings.attemptTimeout = some limit ∧ counted + limit.nanos ≤ m.now
  shutdown : m.finds context.check = some (some .shutdown) ↔ m.stopping = true
  deadlineExceeded : m.finds context.check = some (some .deadlineExceeded) ↔
    m.stopping = false ∧ m.finds context.checkLate = some true
  noLongerPlanned : m.finds context.check = some (some .noLongerPlanned) ↔
    m.stopping = false ∧ m.finds context.checkLate ≠ some true ∧ copies = true ∧
      ¬Planned setting job m
  goesOn : m.finds context.check = some none ↔
    m.stopping = false ∧ m.finds context.checkLate ≠ some true ∧
      (copies = true → Planned setting job m)

theorem deadlineFrom_eq_some_iff {counted deadline : Instant} :
    deadlineFrom setting job counted = some deadline ↔ job.syncByRevision = true ∧
      ∃ limit, setting.settings.attemptTimeout = some limit ∧ counted + limit.nanos = deadline := by
  unfold deadlineFrom
  cases job.syncByRevision with
  | false => simp
  | true => simp [Option.map_eq_some_iff]

theorem examined_of_deadlineFrom (counted : Instant) (copies : Bool) (m : Moment) :
    Examined setting job counted copies
      { deadline := deadlineFrom setting job counted
        plan := if copies then some (planCheck setting job) else none } m := by
  set context : Context := { deadline := deadlineFrom setting job counted
                             plan := if copies then some (planCheck setting job) else none }
  have late : context.isLate m.now = true ↔ job.syncByRevision = true ∧
      ∃ limit, setting.settings.attemptTimeout = some limit ∧ counted + limit.nanos ≤ m.now := by
    simp only [Context.isLate_iff, context, deadlineFrom_eq_some_iff]
    grind
  have planned : context.isPlanned m.planned = true ↔ (copies = true → Planned setting job m) := by
    cases copies with
    | false => simp [context, Context.isPlanned]
    | true => exact ⟨fun holds _ => holds_iff_planned.mp holds,
        fun planned => holds_iff_planned.mpr (planned rfl)⟩
  have unplanned : context.isPlanned m.planned = false ↔ copies = true ∧ ¬Planned setting job m := by
    rw [← Bool.not_eq_true, planned, Classical.not_imp]
  constructor
  · rw [Context.finds_isStopping, Option.some_inj]
  · rw [Context.finds_checkLate, Option.some_inj, late]
  · rw [Context.finds_check, Option.some_inj, Context.verdict_eq_shutdown_iff]
  · rw [Context.finds_check, Context.finds_checkLate, Option.some_inj, Option.some_inj,
      Context.verdict_eq_deadlineExceeded_iff]
  · rw [Context.finds_check, Context.finds_checkLate, Option.some_inj, Ne, Option.some_inj,
      Context.verdict_eq_noLongerPlanned_iff, unplanned, Bool.not_eq_true]
  · rw [Context.finds_check, Context.finds_checkLate, Option.some_inj, Ne, Option.some_inj,
      Context.verdict_eq_none_iff, planned, Bool.not_eq_true]

/-- All contexts of an attempt say the same of the deadline, which is reckoned from the moment when
the local documents were first counted. Without a limit, or where nothing is compared by revision, an
attempt ends for lack of time only if an answer says so. -/
theorem run_hands_out_deadline (clock : Nat → Instant) :
    (∀ before c next, Steps (run setting job) before (.call c next) → Timed clock before →
      ∀ context, c.context? = some context → ∃ counted,
        (∀ later, firstCount clock (before ++ later) = some counted) ∧
        ∀ m, Examined setting job counted c.copies context m) ∧
    ∀ es report, Runs (run setting job) es report →
      job.syncByRevision = false ∨ setting.settings.attemptTimeout = none →
      report.fault = some .attemptTimeout → ∃ e ∈ es, decisiveFault e = some .attemptTimeout := by
  constructor
  · intro before c next steps timed context handed
    obtain ⟨deadline, dated, rfl⟩ :=
      (run_keeps_contextLaw clock setting job).allowed steps context handed
    rw [List.nil_append] at dated
    obtain ⟨counted, first, rfl⟩ := dated timed
    exact ⟨counted, fun later => firstCount_append first,
      examined_of_deadlineFrom setting job counted c.copies⟩
  · intro es report runs unlimited late
    have traced : Traced setting job .attemptTimeout es :=
      (run_traces_timeouts setting job).ended runs _ late
    refine (traced rfl).resolve_left ?_
    rintro ⟨byRevision, limited⟩
    rcases unlimited with apart | none
    · exact nomatch byRevision.symm.trans apart
    · rw [none] at limited
      cases limited

end

def outOfTime (_ : History surroundings) : (c : Call) → Option c.Reply
  | .catchUp .. => some (.error .attemptTimeout)
  | _ => none

theorem lateRun_hands_out_deadline :
    let before := lateRun.1.take 18
    let m : Moment := ⟨false, 14 * nanosPerSecond, fun _ => .ok []⟩
    (∃ c next context, Steps (run hastySetting revisionJob) before (.call c next) ∧
      Timed (· * nanosPerSecond) before ∧ c.context? = some context ∧
      firstCount (· * nanosPerSecond) before = some (9 * nanosPerSecond) ∧
      m.finds context.check = some (some .deadlineExceeded)) ∧
    ∃ es report, Runs (run calmSetting calmJob) es report ∧
      calmSetting.settings.attemptTimeout = none ∧ report.fault = some .attemptTimeout ∧
      ∃ e ∈ es, decisiveFault e = some .attemptTimeout := by
  intro before m
  constructor
  · have ends : lateRun.2.isSome = true := by decide +kernel
    have timed : Timed (· * nanosPerSecond) before := by decide +kernel
    have first : firstCount (· * nanosPerSecond) before = some (9 * nanosPerSecond) := by
      decide +kernel
    have handed : (lateRun.1[18]?.bind fun e => e.call.context?).isSome = true := by decide +kernel
    obtain ⟨report, ended⟩ := Option.isSome_iff_exists.mp ends
    have runs : Runs (run hastySetting revisionJob) lateRun.1 report := Program.runs_of_played ended
    obtain ⟨context, handed⟩ := Option.isSome_iff_exists.mp handed
    obtain ⟨e, found, handed⟩ := Option.bind_eq_some_iff.mp handed
    obtain ⟨next, steps⟩ := Steps.nth runs found
    obtain ⟨counted, always, examined⟩ := (run_hands_out_deadline hastySetting revisionJob _).1 before
      e.call next steps timed context handed
    obtain rfl : 9 * nanosPerSecond = counted := by
      have same := always []
      rw [List.append_nil, first] at same
      exact Option.some.inj same
    refine ⟨e.call, next, context, steps, timed, handed, first, (examined m).deadlineExceeded.mpr ⟨rfl, ?_⟩⟩
    exact (examined m).lateness.mpr ⟨rfl, _, rfl, by decide⟩
  · have ends : (troubledRun outOfTime).2.map Report.fault = some (some .attemptTimeout) := by
      decide +kernel
    obtain ⟨report, runs, late⟩ := troubledRun_ends _ ends
    exact ⟨_, report, runs, rfl, late,
      (run_hands_out_deadline calmSetting calmJob id).2 _ _ runs (.inr rfl) late⟩

end FollowerSync.Attempt
