import FollowerSync.Proofs.Footprints

set_option autoImplicit false

namespace FollowerSync.Attempt
open Maintenance

def Call.operation : Call → Option Operation
  | .upkeep op => some op
  | _ => none

def upkeeps (h : History surroundings) : List Operation :=
  h.filterMap fun e => Call.operation e.call

/-- The state `t` is what an attempt that ended with this fault, if with any, makes of `s`. -/
structure Booked (job : Job) (fault : Option Fault) (s t : Store) : Prop where
  cleared : fault = none → t.failures job.key = 0
  counted : ∀ f, fault = some f →
    t.failures job.key = if f.countsAsFailure then s.failures job.key + 1 else s.failures job.key
  timedOut : t.timedOut = if fault = some .attemptTimeout then s.timedOut + 1 else s.timedOut
  closed : fault ≠ some .requeued →
    t.version job.key = s.version job.key + 1 ∧ t.locked job.key = false
  handedOver : fault = some .requeued →
    t.version job.key = s.version job.key ∧ t.locked job.key = s.locked job.key
  others : ∀ key, key ≠ job.key → t.failures key = s.failures key ∧
    t.version key = s.version key ∧ t.locked key = s.locked key

def Minor (job : Job) (op : Operation) : Prop :=
  op ∈ [.failures job.key, .requeue job .slow, .countWrongChecksum]

def recording (job : Job) : Option Fault → List Operation
  | none => [.clearFailures job.key]
  | some fault =>
    (if fault.countsAsFailure then [.recordFailure job.key] else []) ++
      if fault = .attemptTimeout then [.countTimedOut] else []

def closing (job : Job) (fault : Option Fault) : List Operation :=
  recording job fault ++
    if fault = some .requeued then [] else [.advanceVersion job.key, .unlock job.key]

theorem closes_of_closing {job : Job} {fault : Option Fault} {op : Operation}
    (mem : op ∈ closing job fault) : (Call.upkeep op).Closes job := by
  unfold closing recording at mem
  cases fault <;> grind [Call.Closes]

def books (s : Store) : (ShardKey → Nat) × (ShardKey → Nat) × (ShardKey → Bool) × Nat :=
  (s.failures, s.version, s.locked, s.timedOut)

theorem books_after_minor {job : Job} {op : Operation} (minor : Minor job op) (s : Store) :
    books (s.after op) = books s := by
  simp only [Minor, List.mem_cons, List.not_mem_nil, or_false] at minor
  rcases minor with rfl | rfl | rfl <;> rfl

theorem books_afterAll_minor {job : Job} {ops : List Operation} (minor : ∀ op ∈ ops, Minor job op)
    (s : Store) : books (s.afterAll ops) = books s := by
  induction ops generalizing s with
  | nil => rfl
  | cons op ops ih =>
    obtain ⟨first, rest⟩ := List.forall_mem_cons.mp minor
    rw [Store.afterAll_cons, ih rest, books_after_minor first]

theorem Booked.of_books {job : Job} {fault : Option Fault} {s s' t : Store}
    (booked : Booked job fault s t) (same : books s = books s') : Booked job fault s' t := by
  obtain ⟨failures, version, locked, timedOut⟩ : s.failures = s'.failures ∧
      s.version = s'.version ∧ s.locked = s'.locked ∧ s.timedOut = s'.timedOut := by
    simpa [books] using same
  obtain ⟨cleared, counted, late, closed, handedOver, others⟩ := booked
  rw [failures] at counted
  rw [timedOut] at late
  rw [version] at closed
  rw [version, locked] at handedOver
  rw [failures, version, locked] at others
  exact ⟨cleared, counted, late, closed, handedOver, others⟩

theorem ne_of_counts {fault : Fault} (counts : fault.countsAsFailure = true) :
    fault ≠ .attemptTimeout ∧ fault ≠ .requeued := by
  constructor <;> rintro rfl <;> cases counts

theorem closing_of_counts {job : Job} {fault : Fault} (counts : fault.countsAsFailure = true) :
    closing job (some fault) =
      [.recordFailure job.key, .advanceVersion job.key, .unlock job.key] := by
  simp [closing, recording, counts, ne_of_counts counts]

theorem closing_of_not_counts {job : Job} {fault : Fault} (counts : fault.countsAsFailure = false)
    (late : fault ≠ .attemptTimeout) (requeued : fault ≠ .requeued) :
    closing job (some fault) = [.advanceVersion job.key, .unlock job.key] := by
  simp [closing, recording, counts, late, requeued]

theorem booked_closing (job : Job) (fault : Option Fault) (s : Store) :
    Booked job fault s (s.afterAll (closing job fault)) := by
  rcases fault with _ | fault
  · constructor <;> simp +contextual [closing, recording, Store.after, Store.perform, assign]
  -- The books tell two faults apart; all others only count or do not count.
  by_cases late : fault = .attemptTimeout
  · subst late
    constructor <;> simp +contextual [closing, recording, Store.after, Store.perform, assign,
      Fault.countsAsFailure]
  by_cases requeued : fault = .requeued
  · subst requeued
    constructor <;> simp +contextual [closing, recording, Fault.countsAsFailure]
  cases counts : fault.countsAsFailure with
  | true =>
    rw [closing_of_counts counts]
    constructor <;> simp +contextual [Store.after, Store.perform, assign, counts, late, requeued]
  | false =>
    rw [closing_of_not_counts counts late requeued]
    constructor <;> simp +contextual [Store.after, Store.perform, assign, counts, late, requeued]

theorem wrongChecksums_afterAll (s : Store) (ops : List Operation) :
    (s.afterAll ops).wrongChecksums = s.wrongChecksums + ops.count .countWrongChecksum := by
  induction ops generalizing s with
  | nil => rfl
  | cons op ops ih =>
    rw [Store.afterAll_cons, ih]
    cases op <;> simp [Store.after, Store.perform]
    omega

def queued : Operation → Option Job
  | .requeue job priority => some { job with priority }
  | _ => none

theorem requeued_afterAll {ops : List Operation} (kept : .takeRequeued ∉ ops) (s : Store) :
    (s.afterAll ops).requeued = s.requeued ++ ops.filterMap queued := by
  induction ops generalizing s with
  | nil => simp
  | cons op ops ih =>
    have other := List.ne_of_not_mem_cons kept
    rw [Store.afterAll_cons, ih (List.not_mem_of_not_mem_cons kept)]
    cases op <;> simp_all [Store.after, Store.perform, queued, List.filterMap_cons]

theorem locked_afterAll {key : ShardKey} {ops : List Operation} (kept : .unlock key ∉ ops)
    {s : Store} (locked : s.locked key = true) : (s.afterAll ops).locked key = true := by
  induction ops generalizing s with
  | nil => exact locked
  | cons op ops ih =>
    refine ih (List.not_mem_of_not_mem_cons kept) ?_
    have other := List.ne_of_not_mem_cons kept
    cases op <;> simp_all [Store.after, Store.perform, assign]

def Call.Works (job : Job) (c : Call) : Prop := ∀ op, c.operation = some op → Minor job op

section
variable {job : Job} {c : Call}

theorem works_of_other (other : c.operation = none) : c.Works job := by
  intro op called
  simp [other] at called

theorem works_of_upkeep {op : Operation} (minor : Minor job op) : (Call.upkeep op).Works job := by
  rintro _ ⟨⟩
  exact minor

theorem works_of_looks (c : Call) (looks : c.Looks) : c.Works job := by
  cases c <;> first | exact works_of_other rfl | cases looks

theorem works_of_waits (c : Call) (waits : c.Waits job) : c.Works job := by
  cases c with
  | upkeep op =>
    obtain rfl : op = .failures job.key := waits
    exact works_of_upkeep (by simp [Minor])
  | _ => exact works_of_other rfl

theorem works_of_prepares (c : Call) (prepares : c.Prepares job) : c.Works job := by
  cases c with
  | upkeep op =>
    obtain rfl : op = .requeue job .slow := prepares
    exact works_of_upkeep (by simp [Minor])
  | _ => exact works_of_other rfl

theorem works_of_copies (c : Call) (copies : c.Copies) : c.Works job := by
  cases c <;> first | exact works_of_other rfl | cases copies

theorem works_of_follows (c : Call) (follows : c.Follows) : c.Works job := by
  cases c <;> first | exact works_of_other rfl | cases follows

theorem works_of_registers (c : Call) (registers : c.Registers) : c.Works job := by
  cases c <;> first | exact works_of_other rfl | cases registers

theorem works_of_repairs (c : Call) (repairs : c.Repairs) : c.Works job := by
  cases c with
  | upkeep op =>
    obtain rfl : op = .countWrongChecksum := repairs
    exact works_of_upkeep (by simp [Minor])
  | _ => exact works_of_other rfl

end

section
variable (setting : Setting) (job : Job)

theorem work_uses : (work setting job).Uses (Call.Works job) := by
  refine .bind (Stage.uses_attempt trivial) fun _ => .bind (Stage.uses_enter _) fun _ =>
    .bind ?delayed fun _ => .bind (Stage.uses_enter _) fun _ => .bind ?waited fun _ =>
    .bind ?prepared fun endpoint => .bind ?copied fun syncerId => .bind ?followed fun _ =>
    .bind ?stopping fun _ => catchUpHard_uses setting job endpoint syncerId works_of_follows
      works_of_registers works_of_repairs
  case delayed =>
    exact Stage.uses_attempt ((delayAfterFailures_uses setting job).mono works_of_waits)
  case waited => exact Stage.uses_attempt ((waitForLeader_uses setting job _).mono works_of_looks)
  case prepared => exact (prepare_uses setting job).mono works_of_prepares
  case copied => exact (copyShard_uses setting job endpoint).mono works_of_copies
  case followed => exact (catchUpSoftly_uses setting job endpoint).mono works_of_follows
  case stopping => exact unlessStopping_uses.mono works_of_looks

end

/-- When the shard is unlocked, only the clock is read any more. -/
def UnlockedLast (job : Job) (h : History surroundings) (c : Call) : Prop :=
  .unlock job.key ∈ upkeeps h → c = .now

section
variable {job : Job} {h : History surroundings} {c : Call} {e : Event surroundings}
  {ops : List Operation}

theorem upkeeps_of_some (start : upkeeps h = ops) {op : Operation}
    (called : Call.operation e.call = some op) : upkeeps (h ++ [e]) = ops ++ [op] := by
  rw [upkeeps, List.filterMap_append, ← upkeeps, start]
  simp [called]

theorem upkeeps_of_none (start : upkeeps h = ops) (other : Call.operation e.call = none) :
    upkeeps (h ++ [e]) = ops := by
  rw [upkeeps, List.filterMap_append, ← upkeeps, start]
  simp [other]

theorem unlockedLast_of_locked (start : upkeeps h = ops) (locked : .unlock job.key ∉ ops) :
    UnlockedLast job h c := fun unlocked => absurd (start ▸ unlocked) locked

theorem operation_of_looks (looks : c.Looks) : c.operation = none := by
  cases c <;> first | rfl | cases looks

theorem looks_unlockedLast (locked : .unlock job.key ∉ ops) :
    Stage.Stable (UnlockedLast job) Call.Looks fun _ h => upkeeps h = ops where
  allowed := fun _ _ _ start _ => unlockedLast_of_locked start locked
  kept := fun _ _ _ _ start looks => upkeeps_of_none start (operation_of_looks looks)

theorem unlock_not_minor : ¬Minor job (.unlock job.key) := by
  simp [Minor]

theorem works_unlockedLast (job : Job) :
    Stage.Stable (UnlockedLast job) (Call.Works job)
      fun _ h => ∀ op ∈ upkeeps h, Minor job op where
  allowed := fun _ _ _ minor _ unlocked => absurd (minor _ unlocked) unlock_not_minor
  kept := by
    intro _ h c r minor works
    cases called : c.operation with
    | none => rwa [upkeeps_of_none rfl called]
    | some op =>
      rw [upkeeps_of_some rfl called]
      exact List.forall_mem_append.mpr ⟨minor, by simpa using works op called⟩

theorem unlock_not_recorded (fault : Option Fault) : .unlock job.key ∉ recording job fault := by
  rcases fault with _ | fault
  · simp [recording]
  · simp only [recording, List.mem_append]
    split <;> split <;> simp

theorem recordOutcome_keeps (fault : Option Fault) (start : upkeeps h = ops)
    (locked : .unlock job.key ∉ ops) :
    (recordOutcome job fault).Keeps (UnlockedLast job)
      (fun _ h => upkeeps h = ops ++ recording job fault) h := by
  rcases fault with _ | fault
  · exact ⟨unlockedLast_of_locked start locked, fun _ => upkeeps_of_some start rfl⟩
  · simp only [recordOutcome, ask_eq, Program.bind_eq, Program.bind_call, Program.bind_done,
      Program.keeps_ite, Program.keeps_call, Program.keeps_done, Program.pure_eq]
    refine ⟨fun counted => ⟨unlockedLast_of_locked start locked, fun failures => ?_⟩,
      fun uncounted => ?_⟩
    · have recorded := upkeeps_of_some start (e := ⟨.upkeep (.recordFailure job.key), failures⟩) rfl
      have late := (ne_of_counts counted.2).1
      refine ⟨fun timedOut => absurd timedOut late, fun _ => ?_⟩
      simpa [recording, counted.2, late] using recorded
    · have counts : fault.countsAsFailure = false := by
        rw [Bool.eq_false_iff]
        intro counts
        exact uncounted ⟨(ne_of_counts counts).2, counts⟩
      refine ⟨fun late => ⟨unlockedLast_of_locked start locked, fun r => ?_⟩, fun late => ?_⟩
      · have recorded := upkeeps_of_some start (e := ⟨.upkeep .countTimedOut, r⟩) rfl
        simpa only [recording, counts, if_pos late, Bool.false_eq_true, if_false,
          List.nil_append] using recorded
      · simpa [recording, counts, late] using start

theorem close_keeps (setting : Setting) (fault : Option Fault) (start : upkeeps h = ops)
    (locked : .unlock job.key ∉ ops) :
    (close setting job fault).Keeps (UnlockedLast job)
      (fun _ h => upkeeps h = ops ++ closing job fault) h := by
  unfold close
  rw [Program.bind_eq, Program.keeps_bind]
  refine (recordOutcome_keeps fault start locked).mono fun _ h recorded => ?_
  have still : .unlock job.key ∉ ops ++ recording job fault := by
    simp [locked, unlock_not_recorded]
  rw [Program.keeps_ite]
  refine ⟨fun requeued => ?_, fun requeued => ?_⟩
  · rw [Program.bind_eq, Program.keeps_bind]
    have looks := (awaitCurrentVersion_uses setting.settings.currentVersionWait).mono
      fun _ => Call.Watches.looks
    refine ((looks_unlockedLast still).keeps (j := {}) looks recorded).mono fun _ h recorded => ?_
    refine ⟨unlockedLast_of_locked recorded still, fun version => ?_⟩
    have advanced := upkeeps_of_some recorded
      (e := ⟨.upkeep (.advanceVersion job.key), version⟩) rfl
    refine ⟨unlockedLast_of_locked advanced (by simp [locked, unlock_not_recorded]), fun _ => ?_⟩
    have unlocked := upkeeps_of_some advanced (e := ⟨.upkeep (.unlock job.key), ()⟩) rfl
    simpa [closing, requeued] using unlocked
  · rw [Decidable.not_not] at requeued
    simpa [closing, requeued] using recorded

end

section
variable (setting : Setting) (job : Job)

def Closed (report : Report) (h : History surroundings) : Prop :=
  (report.state = if report.fault.isNone then .complete else .failed) ∧
    ∃ minor : List Operation, (∀ op ∈ minor, Minor job op) ∧
      upkeeps h = minor ++ closing job report.fault

theorem concludes_closed {began : Instant} {fault : Option Fault} {j : Journal}
    {h : History surroundings} (minor : ∀ op ∈ upkeeps h, Minor job op) :
    Concludes (UnlockedLast job) (Closed job) setting job began fault j h := by
  have locked : .unlock job.key ∉ upkeeps h := fun unlocked => unlock_not_minor (minor _ unlocked)
  refine (close_keeps setting fault rfl locked).mono fun _ h' closed => ?_
  refine ⟨fun _ => rfl, fun ended => ?_⟩
  exact ⟨rfl, upkeeps h, minor, upkeeps_of_none closed rfl⟩

theorem run_keeps_unlockedLast :
    (run setting job).Keeps (UnlockedLast job) (Closed job) [] := by
  rw [keeps_run]
  refine ⟨fun _ => rfl, fun began => ?_⟩
  have worked := (work_uses setting job).preserves (works_unlockedLast job) {} [⟨.now, began⟩]
    (by simp [upkeeps, Call.operation])
  exact worked.mono (fun _ _ _ => concludes_closed setting job)
    fun _ _ _ => concludes_closed setting job

variable {setting job} in
theorem Closed.booked {report : Report} {h : History surroundings} (closed : Closed job report h)
    (store : Store) : Booked job report.fault store (store.afterAll (upkeeps h)) := by
  obtain ⟨_, minor, all, ops⟩ := closed
  have booked := booked_closing job report.fault (store.afterAll minor)
  rw [← Store.afterAll_append, ← ops] at booked
  exact booked.of_books (books_afterAll_minor all store)

theorem Closed.queue_kept {report : Report} {h : History surroundings}
    (closed : Closed job report h) : .takeRequeued ∉ upkeeps h := by
  obtain ⟨_, minor, all, ops⟩ := closed
  rw [ops, List.mem_append]
  rintro (taken | taken)
  · simpa [Minor] using all _ taken
  · simpa [Call.Closes] using closes_of_closing taken

theorem booked_of_runs {report : Report} {es : History surroundings}
    (runs : Runs (run setting job) es report) (store : Store) :
    Booked job report.fault store (store.afterAll (upkeeps es)) :=
  ((run_keeps_unlockedLast setting job).ended runs).booked store

/-- The report of an attempt says what its books say, and unlocking the shard is the last that an
attempt does. -/
theorem run_closes_books (store : Store) (es : History surroundings) :
    (∀ report, Runs (run setting job) es report →
      (report.state = .complete ↔ report.fault = none) ∧
      (report.state = .failed ↔ report.fault ≠ none) ∧
      Booked job report.fault store (store.afterAll (upkeeps es))) ∧
    ∀ c next, Steps (run setting job) es (.call c next) →
      (.unlock job.key ∈ upkeeps es → c = .now) ∧
      (store.locked job.key = true → c ≠ .now →
        (store.afterAll (upkeeps es)).locked job.key = true) := by
  have k := run_keeps_unlockedLast setting job
  constructor
  · intro report runs
    obtain ⟨state, minor, all, ops⟩ := k.ended runs
    rw [List.nil_append] at ops
    have closed := booked_closing job report.fault (store.afterAll minor)
    rw [← Store.afterAll_append, ← ops] at closed
    refine ⟨?_, ?_, closed.of_books (books_afterAll_minor all store)⟩
    · by_cases none : report.fault = none <;> simp [state, none]
    · by_cases none : report.fault = none <;> simp [state, none]
  · intro c next steps
    have last := k.allowed steps
    exact ⟨last, fun locked other => locked_afterAll (mt last other) locked⟩

theorem calmRun_closes_books :
    let store : Store := { failures := fun _ => 2, locked := fun _ => true }
    Runs (run calmSetting calmJob) calmRun.1 calmRun.2 ∧ calmRun.2.state = .complete ∧
      Booked calmJob calmRun.2.fault store (store.afterAll (upkeeps calmRun.1)) ∧
      ∃ before c next, Steps (run calmSetting calmJob) before (.call c next) ∧
        c.operation = some (.unlock calmJob.key) ∧
        (store.afterAll (upkeeps before)).locked calmJob.key = true := by
  intro store
  have complete : calmRun.2.state = .complete := by decide +kernel
  have booked := (run_closes_books calmSetting calmJob store calmRun.1).1 _ calmRun_runs
  have unlocked : ∃ e ∈ calmRun.1, Call.operation e.call = some (.unlock calmJob.key) := by
    decide +kernel
  obtain ⟨e, mem, unlocks⟩ := unlocked
  obtain ⟨before, after, split⟩ := List.append_of_mem mem
  have runs := calmRun_runs
  rw [split] at runs
  obtain ⟨next, steps⟩ := Steps.before runs
  have last := (run_closes_books calmSetting calmJob store before).2 _ _ steps
  have other : e.call ≠ .now := fun now => by simp [now, Call.operation] at unlocks
  exact ⟨calmRun_runs, complete, booked.2.2, before, e.call, next, steps, unlocks,
    last.2 rfl other⟩

end

end FollowerSync.Attempt
