import Mathlib.Data.List.Basic
import FollowerSync.Proofs.Books
import FollowerSync.Proofs.Examinations
import FollowerSync.Proofs.Locks

/-!
# Interruptions

Copying, a lock handshake, following the log and its end may fail. Then the attempt ends: it cancels
the lock that it may hold, unless that is to be done in any case, and judges the fault. A fault that
counts gives way to the reason for giving up that there is by then.
-/

set_option autoImplicit false

namespace FollowerSync.Attempt
open Leader

def interruption : Event surroundings → Option Fault
  | ⟨.bulkSync .., .error fault⟩ | ⟨.leader _ (.newLockId _) _, .error fault⟩
  | ⟨.leader _ (.acquireLock _) _, .error fault⟩ | ⟨.catchUp .., .error fault⟩
  | ⟨.finalize .., .error fault⟩ => some fault
  | _ => none

def Uninterrupted (h : History surroundings) : Prop := ∀ e ∈ h, interruption e = none

def Call.context? : Call → Option Context
  | .bulkSync _ context | .catchUp _ _ _ context | .finalize _ _ _ context => some context
  | _ => none

def Call.copies : Call → Bool
  | .bulkSync .. => true
  | _ => false

def Call.finalizes : Call → Bool
  | .finalize .. => true
  | _ => false

def Call.Plain : Call → Prop
  | .bulkSync .. | .catchUp .. | .finalize .. | .leader _ (.newLockId _) _
  | .leader _ (.acquireLock _) _ => False
  | _ => True

def Call.Leads : Call → Prop
  | .documentCount => False
  | c => c.Plain

/-- What an interruption makes an attempt cancel before it judges it: a lock that the leader may
have granted all the same, or the one under which the log was followed. -/
inductive CleansUp : Event surroundings → History surroundings → Prop
  | copying {request : BulkRequest} {context : Context} {fault : Fault} :
    CleansUp ⟨.bulkSync request context, .error fault⟩ []
  | fetching {endpoint database : String} {limit : Duration} {fault : Fault} :
    CleansUp ⟨.leader endpoint (.newLockId database) limit, .error fault⟩ []
  | unreached {endpoint : String} {lock : LockRequest} {limit : Duration} {fault : Fault}
    (unreached : fault.isConnectFailure = true) :
    CleansUp ⟨.leader endpoint (.acquireLock lock) limit, .error fault⟩ []
  | refused {endpoint : String} {lock : LockRequest} {limit cancelLimit : Duration} {fault : Fault}
    {answer : Except Fault Unit} (reached : ¬fault.isConnectFailure = true) :
    CleansUp ⟨.leader endpoint (.acquireLock lock) limit, .error fault⟩
      [⟨.leader endpoint (.cancelLock lock.database lock.lockId lock.clientId) cancelLimit, answer⟩]
  | following {collection : String} {start : Tick} {budget cancelLimit : Duration} {context : Context}
    {fault : Fault} {endpoint database clientId : String} {lockId : UInt64}
    {answer : Except Fault Unit} :
    CleansUp ⟨.catchUp collection start budget context, .error fault⟩
      [⟨.leader endpoint (.cancelLock database lockId clientId) cancelLimit, answer⟩]
  | finalizing {collection : String} {start : Tick} {bound : Option Tick} {context : Context}
    {fault : Fault} : CleansUp ⟨.finalize collection start bound context, .error fault⟩ []

/-- An interruption of the log's end is judged while the lock is held, which is cancelled then. -/
def Releases (e : Event surroundings) (rest : History surroundings) : Prop :=
  e.call.finalizes = true → ∃ cancel later, rest = cancel :: later ∧
    (Call.cancels cancel.call).isSome = true

section
variable (clock : Nat → Instant) (setting : Setting) (job : Job)

def judgement (deadline : Option Instant) : Context :=
  { deadline, plan := some (planCheck setting job) }

/-- The attempt was interrupted by this event, cleaned up, judged the fault, and went on to `rest`;
this is the fault that it ends with. -/
def BrokenOff (e : Event surroundings) (rest : History surroundings) (fault : Fault)
    (h : History surroundings) : Prop :=
  ∃ (before cleanup : History surroundings) (own : Fault) (m : Moment) (deadline : Option Instant),
    h = before ++ e :: (cleanup ++ ((judgement setting job deadline).looksToJudge m own ++ rest)) ∧
    interruption e = some own ∧ CleansUp e cleanup ∧
    fault = (judgement setting job deadline).judge m own ∧
    Dated clock setting job deadline before ∧ Uninterrupted before ∧ Uninterrupted rest

def Failed (fault : Fault) (h : History surroundings) : Prop :=
  Uninterrupted h ∨ ∃ e rest, BrokenOff clock setting job e rest fault h ∧ Releases e rest

/-- A context names the deadline of the attempt, and the plan if it is handed to the copying. -/
def ContextLaw (h : History surroundings) (c : Call) : Prop :=
  ∀ context, c.context? = some context → ∃ deadline, Dated clock setting job deadline h ∧
    context = { deadline, plan := if c.copies then some (planCheck setting job) else none }

structure Uncounted (j : Journal) (h : History surroundings) : Prop where
  unlimited : j.deadline = none
  uncounted : ∀ e ∈ h, e.call.countsDocuments = false
  uninterrupted : Uninterrupted h

structure UnderWay (j : Journal) (h : History surroundings) : Prop where
  dated : Dated clock setting job j.deadline h
  uninterrupted : Uninterrupted h

end

section
variable {h later : History surroundings} {e : Event surroundings}

theorem Uninterrupted.append (before : Uninterrupted h) (after : Uninterrupted later) :
    Uninterrupted (h ++ later) := by
  intro e mem
  exact (List.mem_append.mp mem).elim (before e) (after e)

theorem uninterrupted_nil : Uninterrupted [] := fun _ mem => absurd mem List.not_mem_nil

theorem uninterrupted_singleton (harmless : interruption e = none) : Uninterrupted [e] := by
  intro e' mem
  rwa [List.mem_singleton.mp mem]

theorem interruption_of_plain {c : Call} (plain : c.Plain) (r : c.Reply) :
    interruption ⟨c, r⟩ = none := by
  cases c with
  | leader endpoint request limit =>
    cases request with
    | newLockId | acquireLock => cases plain
    | _ => rfl
  | bulkSync | catchUp | finalize => cases plain
  | _ => rfl

theorem context_of_plain {c : Call} (plain : c.Plain) : c.context? = none := by
  cases c with
  | bulkSync | catchUp | finalize => cases plain
  | _ => rfl

theorem Call.Looks.leads {c : Call} (looks : c.Looks) : c.Leads := by
  cases c <;> trivial

theorem Call.Waits.leads {c : Call} {job : Job} (waits : c.Waits job) : c.Leads := by
  cases c <;> trivial

theorem Call.Leads.plain {c : Call} (leads : c.Leads) : c.Plain := by
  cases c with
  | documentCount => trivial
  | _ => exact leads

theorem Call.Looks.plain {c : Call} (looks : c.Looks) : c.Plain := looks.leads.plain

theorem Call.Repairs.plain {c : Call} (repairs : c.Repairs) : c.Plain := by
  cases c with
  | leader endpoint request limit => cases request <;> trivial
  | _ => trivial

theorem Call.Closes.plain {c : Call} {job : Job} (closes : c.Closes job) : c.Plain := by
  cases c <;> trivial

theorem CleansUp.uninterrupted {cleanup : History surroundings} (cleans : CleansUp e cleanup) :
    Uninterrupted cleanup := by
  cases cleans <;> first | exact uninterrupted_nil | exact uninterrupted_singleton rfl

theorem uninterrupted_ite {p : Prop} [Decidable p] (first : Uninterrupted h)
    (second : Uninterrupted later) : Uninterrupted (if p then h else later) := by
  split
  · exact first
  · exact second

theorem uninterrupted_looks (c : Context) (m : Moment) : Uninterrupted (c.looks m) := by
  have atPlan : Uninterrupted (c.looksAtPlan m.planned) := by
    unfold Context.looksAtPlan
    split
    · exact uninterrupted_singleton rfl
    · exact uninterrupted_nil
  unfold Context.looks
  refine (uninterrupted_singleton (e := ⟨.stopping, m.stopping⟩) rfl).append ?_
  refine uninterrupted_ite uninterrupted_nil (.append ?_ (uninterrupted_ite uninterrupted_nil atPlan))
  exact uninterrupted_ite (uninterrupted_singleton rfl) uninterrupted_nil

theorem uninterrupted_looksToJudge (c : Context) (m : Moment) (fault : Fault) :
    Uninterrupted (c.looksToJudge m fault) :=
  uninterrupted_ite (uninterrupted_looks c m) uninterrupted_nil

end

section
variable {clock : Nat → Instant} {setting : Setting} {job : Job} {j : Journal}
  {h : History surroundings} {e : Event surroundings} {rest : History surroundings} {fault : Fault}

theorem contextLaw_of_none {c : Call} (none : c.context? = none) :
    ContextLaw clock setting job h c := by
  intro context handed
  rw [none] at handed
  cases handed

theorem contextLaw_of_plain {c : Call} (plain : c.Plain) : ContextLaw clock setting job h c :=
  contextLaw_of_none (context_of_plain plain)

theorem contextLaw_of_watches (h : History surroundings) (c : Call) (watches : c.Watches) :
    ContextLaw clock setting job h c := contextLaw_of_plain watches.looks.plain

theorem UnderWay.append (underWay : UnderWay clock setting job j h)
    (harmless : interruption e = none) : UnderWay clock setting job j (h ++ [e]) :=
  ⟨underWay.dated.append, underWay.uninterrupted.append (uninterrupted_singleton harmless)⟩

theorem UnderWay.journal {j' : Journal} (underWay : UnderWay clock setting job j h)
    (same : j'.deadline = j.deadline) : UnderWay clock setting job j' h :=
  ⟨same ▸ underWay.dated, underWay.uninterrupted⟩

theorem UnderWay.failed (underWay : UnderWay clock setting job j h) :
    Failed clock setting job fault h := .inl underWay.uninterrupted

theorem BrokenOff.append {e' : Event surroundings}
    (broken : BrokenOff clock setting job e rest fault h) (harmless : interruption e' = none) :
    BrokenOff clock setting job e (rest ++ [e']) fault (h ++ [e']) := by
  obtain ⟨before, cleanup, own, m, deadline, rfl, interrupts, cleans, judged, dated, quiet, calm⟩ :=
    broken
  exact ⟨before, cleanup, own, m, deadline, by simp, interrupts, cleans, judged, dated, quiet,
    calm.append (uninterrupted_singleton harmless)⟩

theorem Releases.append (releases : Releases e rest) (later : History surroundings) :
    Releases e (rest ++ later) := by
  intro finalizes
  obtain ⟨cancel, after, rfl, cancels⟩ := releases finalizes
  exact ⟨cancel, after ++ later, rfl, cancels⟩

theorem brokenOff_of_judged {cleanup : History surroundings} {own : Fault}
    (underWay : UnderWay clock setting job j h) (interrupts : interruption e = some own)
    (cleans : CleansUp e cleanup) (m : Moment) :
    BrokenOff clock setting job e [] ((j.plannedContext setting job).judge m own)
      (h ++ e :: cleanup ++ (j.plannedContext setting job).looksToJudge m own) :=
  ⟨h, cleanup, own, m, j.deadline, by simp [judgement, Journal.plannedContext], interrupts, cleans,
    rfl, underWay.dated, underWay.uninterrupted, uninterrupted_nil⟩

theorem BrokenOff.failed (broken : BrokenOff clock setting job e rest fault h)
    (releases : Releases e rest) : Failed clock setting job fault h :=
  .inr ⟨e, rest, broken, releases⟩

theorem releases_of_other (other : e.call.finalizes = false) : Releases e rest := by
  intro finalizes
  rw [other] at finalizes
  cases finalizes

end

section
variable (clock : Nat → Instant) (setting : Setting) (job : Job)

theorem uncounted_stable :
    Stage.Stable (ContextLaw clock setting job) Call.Leads Uncounted where
  allowed := fun _ _ _ _ leads => contextLaw_of_plain leads.plain
  kept := by
    rintro j h c r ⟨unlimited, uncounted, uninterrupted⟩ leads
    refine ⟨unlimited, ?_, uninterrupted.append
      (uninterrupted_singleton (interruption_of_plain leads.plain r))⟩
    intro e mem
    rcases List.mem_append.mp mem with earlier | last
    · exact uncounted e earlier
    · rw [List.mem_singleton.mp last]
      cases c with
      | documentCount => cases leads
      | _ => rfl

theorem uninterrupted_stable :
    Stage.Stable (ContextLaw clock setting job) Call.Plain fun _ => Uninterrupted where
  allowed := fun _ _ _ _ => contextLaw_of_plain
  kept := fun _ _ _ r uninterrupted plain =>
    uninterrupted.append (uninterrupted_singleton (interruption_of_plain plain r))

theorem failed_stable (fault : Fault) :
    Stage.Stable (ContextLaw clock setting job) Call.Plain
      fun _ => Failed clock setting job fault where
  allowed := fun _ _ _ _ => contextLaw_of_plain
  kept := by
    rintro _ h c r (uninterrupted | ⟨e, rest, broken, releases⟩) plain
    · exact .inl ((uninterrupted_stable clock setting job).kept {} h c r uninterrupted plain)
    · exact (broken.append (interruption_of_plain plain r)).failed (releases.append _)

def JustCounted (j : Journal) (h : History surroundings) : Prop :=
  ∃ before answer, h = before ++ [⟨.documentCount, answer⟩] ∧ Uncounted j before

variable {clock setting job} in
theorem JustCounted.failed {fault : Fault} {j : Journal} {h : History surroundings}
    (counted : JustCounted j h) : Failed clock setting job fault h := by
  obtain ⟨before, answer, rfl, uncounted⟩ := counted
  exact .inl (uncounted.uninterrupted.append (uninterrupted_singleton rfl))

theorem JustCounted.dated {j : Journal} {h : History surroundings} {deadline : Option Instant}
    (counted : JustCounted j h) (same : deadline = deadlineFrom setting job (clock h.length)) :
    Dated clock setting job deadline h := by
  obtain ⟨before, answer, rfl, uncounted⟩ := counted
  intro _
  rw [List.length_append] at same
  exact ⟨_, firstCount_of_uncounted uncounted.uncounted answer, same⟩

section
variable {j : Journal} {h : History surroundings}

theorem lookupShard_leads : (lookupShard job).Preserves (ContextLaw clock setting job) Uncounted := by
  refine .bind (Stage.preserves_attempt (uncounted_stable clock setting job)
    ⟨trivial, fun _ => trivial⟩) fun found => ?_
  cases found <;> simp

theorem readInitialCounts_counts (endpoint : String) (uncounted : Uncounted j h) :
    (readInitialCounts setting job endpoint).Keeps (ContextLaw clock setting job)
      (fun _ => JustCounted) (fun fault _ => Failed clock setting job fault) j h := by
  have kept (answer : Except Fault UInt64) :=
    (uncounted_stable clock setting job).kept j h (.leader endpoint
      (.collectionCount job.database job.shard) setting.settings.leaderCountTimeout) answer uncounted
      trivial
  simp only [readInitialCounts, ask_eq, Stage.keeps_bind, Stage.keeps_attempt, Stage.keeps_modify,
    Program.keeps_call, Program.keeps_done]
  refine ⟨contextLaw_of_plain trivial, ?_⟩
  rintro (fault | onLeader)
  · exact .inl (kept _).uninterrupted
  · refine ⟨contextLaw_of_plain trivial, ?_⟩
    have uncounted := kept (.ok onLeader)
    rintro (fault | here)
    · exact .inl (uncounted.uninterrupted.append (uninterrupted_singleton rfl))
    · exact ⟨_, _, rfl, uncounted.unlimited, uncounted.uncounted, uncounted.uninterrupted⟩

theorem checkRequeue_counted (counted : JustCounted j h) :
    (checkRequeue setting job).Keeps (ContextLaw clock setting job) (fun _ => JustCounted)
      (fun fault _ => Failed clock setting job fault) j h := by
  unfold checkRequeue
  rw [Stage.keeps_bind, Stage.keeps_get]
  dsimp only
  split
  · exact counted
  · rw [Stage.keeps_bind, Stage.keeps_act]
    refine ⟨contextLaw_of_plain trivial, fun _ => ?_⟩
    exact (failed_stable clock setting job .requeued).kept j h _ _ counted.failed trivial

theorem startAttemptClock_dates (counted : JustCounted j h) :
    (startAttemptClock setting job).Keeps (ContextLaw clock setting job)
      (fun _ => UnderWay clock setting job) (fun fault _ => Failed clock setting job fault) j h := by
  obtain ⟨before, answer, rfl, uncounted⟩ := id counted
  have uninterrupted := uncounted.uninterrupted.append
    (uninterrupted_singleton (e := ⟨.documentCount, answer⟩) rfl)
  have unlimited (same : none = deadlineFrom setting job (clock (before.length + 1))) :
      UnderWay clock setting job j (before ++ [⟨.documentCount, answer⟩]) := by
    refine ⟨counted.dated clock setting job ?_, uninterrupted⟩
    rw [uncounted.unlimited, same, List.length_append]
    rfl
  unfold startAttemptClock
  split
  case isFalse apart => exact unlimited (by simp [deadlineFrom, apart])
  case isTrue byRevision =>
    cases limited : setting.settings.attemptTimeout with
    | none => exact unlimited (by simp [deadlineFrom, limited])
    | some limit =>
      simp only [momentAfter, ask_eq, Program.bind_eq, Program.bind_call, Program.bind_done,
        Stage.keeps_bind, Stage.keeps_act, Stage.keeps_modify, Program.keeps_call,
        Program.keeps_ite]
      have read (start : Instant) :
          UnderWay clock setting job { j with deadline := some (start + limit.nanos) }
            (before ++ [⟨.documentCount, answer⟩] ++ [⟨.now, start⟩]) := by
        refine ⟨fun timed => ?_, uninterrupted.append (uninterrupted_singleton rfl)⟩
        have first : firstCount clock _ = _ := firstCount_of_uncounted uncounted.uncounted answer
        refine ⟨_, firstCount_append first, ?_⟩
        rw [timed.last, List.length_append]
        simp [deadlineFrom, byRevision, limited]
      refine ⟨contextLaw_of_plain trivial, fun start => ⟨fun _ => ?_, fun _ => read start⟩⟩
      exact ⟨contextLaw_of_plain trivial, fun never => Empty.elim never⟩

theorem prepare_dates (uncounted : Uncounted j h) :
    (prepare setting job).Keeps (ContextLaw clock setting job)
      (fun _ => UnderWay clock setting job) (fun fault _ => Failed clock setting job fault) j h := by
  have failed (fault : Fault) (j : Journal) (h : History surroundings) (uncounted : Uncounted j h) :
      Failed clock setting job fault h := .inl uncounted.uninterrupted
  have stable := uncounted_stable clock setting job
  unfold prepare
  rw [Stage.keeps_bind, Stage.keeps_enter, Stage.keeps_bind]
  refine (lookupShard_leads clock setting job { j with phase := .prepare } h ⟨uncounted.unlimited,
    uncounted.uncounted, uncounted.uninterrupted⟩).mono ?_ failed
  intro _ j h uncounted
  rw [Stage.keeps_bind]
  refine (Stage.preserves_attempt stable (p := ask (.serverEndpoint job.leader))
    ⟨trivial, fun _ => trivial⟩ j h uncounted).mono ?_ failed
  intro endpoint j h uncounted
  rw [Stage.keeps_bind]
  refine (readInitialCounts_counts clock setting job endpoint uncounted).mono ?_ fun _ _ _ => id
  intro _ j h counted
  rw [Stage.keeps_bind]
  refine (checkRequeue_counted clock setting job counted).mono ?_ fun _ _ _ => id
  intro _ j h counted
  rw [Stage.keeps_bind]
  refine (startAttemptClock_dates clock setting job counted).mono ?_ fun _ _ _ => id
  intro _ j h underWay
  have opened := underWay.append (e := ⟨.openTailingSyncer job.database endpoint job.leader, ()⟩) rfl
  simp only [ask_eq, Stage.keeps_bind, Stage.keeps_act, Program.keeps_call, Program.keeps_done,
    Stage.keeps_unlessStopping, Stage.keeps_pure]
  exact ⟨contextLaw_of_plain trivial, fun _ => ⟨contextLaw_of_plain trivial,
    (opened.append rfl).failed, opened.append rfl⟩⟩

theorem copyShard_judges (endpoint : String) :
    (copyShard setting job endpoint).Leads (ContextLaw clock setting job)
      (UnderWay clock setting job) fun fault _ => Failed clock setting job fault := by
  intro j h underWay
  have named (answer : Except Fault Unit) :=
    underWay.append (e := ⟨.setLeader job.leader, answer⟩) rfl
  have opened := (named (.ok ())).append (e := ⟨.openBulkSyncer job.database, ()⟩) rfl
  rw [keeps_copyShard]
  refine ⟨contextLaw_of_plain trivial, fun fault => (named _).failed, contextLaw_of_plain trivial,
    ?handed, fun fault => ?failed, fun outcome => ?copied⟩
  case handed =>
    rintro _ ⟨⟩
    exact ⟨j.deadline, opened.dated, rfl⟩
  case failed =>
    have judged (m : Moment) := brokenOff_of_judged opened (e := ⟨.bulkSync (bulkRequest setting job
      endpoint j.initialFollowerCount) (j.plannedContext setting job), .error fault⟩) rfl .copying m
    refine keeps_classify setting job contextLaw_of_watches fun m => ?_
    exact (judged m).failed (releases_of_other rfl)
  case copied =>
    have copied := opened.append (e := ⟨.bulkSync (bulkRequest setting job endpoint
      j.initialFollowerCount) (j.plannedContext setting job), .ok outcome⟩) rfl
    exact ⟨fun _ => copied.failed, fun _ => copied.journal rfl⟩

theorem acquireLock_judges (endpoint : String) (mode : LockMode) (ttl : Duration) {j : Journal}
    {h : History surroundings} (underWay : UnderWay clock setting job j h) :
    (acquireLock setting job endpoint mode ttl).Keeps (ContextLaw clock setting job)
      (fun _ j' h => j' = j ∧ UnderWay clock setting job j h)
      (fun fault _ => Failed clock setting job fault) j h := by
  have fetched (lockId : UInt64) := underWay.append (e := ⟨.leader endpoint
    (.newLockId job.database) ttl, .ok lockId⟩) rfl
  refine keeps_judged setting job contextLaw_of_watches ?_
  rw [keeps_acquire]
  refine ⟨contextLaw_of_none rfl, fun fault m => ?_, fun lockId => ⟨contextLaw_of_none rfl,
    fun grant => ⟨rfl, (fetched lockId).append rfl⟩, fun fault => ⟨fun unreached m => ?_,
      fun reached => ⟨contextLaw_of_plain trivial, fun answer m => ?_⟩⟩⟩⟩
  · exact (brokenOff_of_judged underWay rfl .fetching m).failed (releases_of_other rfl)
  · exact (brokenOff_of_judged (fetched lockId) rfl (.unreached unreached) m).failed
      (releases_of_other rfl)
  · have cleans : CleansUp ⟨.leader endpoint (.acquireLock { lockRequest setting job mode ttl with
        lockId }) ttl, .error fault⟩ [⟨.leader endpoint (.cancelLock job.database lockId job.clientId)
        setting.settings.cancelLockTimeout, answer⟩] := .refused reached
    have broken := brokenOff_of_judged (fetched lockId) rfl cleans m
    rw [List.append_cons] at broken
    exact broken.failed (releases_of_other rfl)

theorem followHeld_judges (budget : Duration) (guard : Guard) :
    (followHeld setting job budget guard).Leads (ContextLaw clock setting job)
      (UnderWay clock setting job) fun fault _ => Failed clock setting job fault := by
  intro j h underWay
  rw [keeps_followHeld]
  intro follow
  refine ⟨?handed, fun fault => ⟨contextLaw_of_plain trivial, fun answer => ?unfollowed⟩,
    fun outcome => ⟨contextLaw_of_plain trivial, fun answer => ?followed⟩⟩
  case handed =>
    rintro _ ⟨⟩
    exact ⟨j.deadline, underWay.dated, rfl⟩
  case unfollowed =>
    refine keeps_classify setting job contextLaw_of_watches fun m => ?_
    have cleans : CleansUp ⟨follow, .error fault⟩ [⟨guard.cancelling, answer⟩] := .following
    have broken := brokenOff_of_judged underWay rfl cleans m
    rw [List.append_cons] at broken
    exact broken.failed (releases_of_other rfl)
  case followed =>
    have cancelled := (underWay.append (e := ⟨follow, .ok outcome⟩) rfl).append
      (e := ⟨guard.cancelling, answer⟩) rfl
    exact ⟨fun _ => cancelled.journal rfl, fun _ _ => cancelled.failed⟩

theorem softRound_judges (endpoint : String) (budget : Duration) :
    (softRound setting job endpoint budget).Leads (ContextLaw clock setting job)
      (UnderWay clock setting job) fun fault _ => Failed clock setting job fault := by
  intro j h underWay
  rw [softRound_eq, Stage.keeps_bind, Stage.keeps_unlessStopping]
  refine ⟨contextLaw_of_plain trivial, (underWay.append rfl).failed, ?_⟩
  rw [Stage.keeps_bind]
  refine (acquireLock_judges clock setting job endpoint .soft _ (underWay.append rfl)).mono ?_
    fun _ _ _ => id
  rintro guard j h ⟨rfl, underWay⟩
  exact followHeld_judges clock setting job budget guard j h underWay

theorem catchUpSoftly_judges (endpoint : String) :
    (catchUpSoftly setting job endpoint).Leads (ContextLaw clock setting job)
      (UnderWay clock setting job) fun fault _ => Failed clock setting job fault :=
  catchUpSoftly_leads setting job endpoint (fun _ _ underWay => underWay.journal rfl)
    (fun _ _ _ => contextLaw_of_plain trivial) (softRound_judges clock setting job endpoint)

/-- An attempt that fails while it holds the hard lock. What broke it off was judged before the
server was about to register. -/
def FailedHeld (fault : Fault) (j : Journal) (h : History surroundings) : Prop :=
  Uninterrupted h ∨ j.phase ≠ .addFollower ∧ ∃ e, BrokenOff clock setting job e [] fault h

theorem register_plain (endpoint : String) (syncerId lockId : UInt64) :
    (register setting job endpoint syncerId lockId).Uses Call.Plain :=
  .bind (Stage.uses_enter _) fun _ => .bind (Stage.uses_attempt ⟨trivial, fun _ => trivial⟩)
    fun _ => .bind (Stage.uses_modify _) fun _ => Stage.uses_attempt ⟨trivial, fun _ => trivial⟩

theorem finalizeAndRegister_judges (endpoint : String) (syncerId lockId : UInt64) {j : Journal}
    {h : History surroundings} (underWay : UnderWay clock setting job j h)
    (phase : j.phase ≠ .addFollower) :
    (finalizeAndRegister setting job endpoint syncerId lockId).Keeps (ContextLaw clock setting job)
      (fun _ _ => Uninterrupted) (FailedHeld clock setting job) j h := by
  let leaderId := j.term.leaderId job.leader
  have named (answer : Except Fault Unit) :=
    underWay.append (e := ⟨.setLeader leaderId, answer⟩) rfl
  have adopted := (named (.ok ())).append (e := ⟨.followLeader leaderId, ()⟩) rfl
  simp only [finalizeAndRegister, adoptTerm, finalizeLog, ask_eq, Stage.keeps_bind, Stage.keeps_get,
    Stage.keeps_attempt, Stage.keeps_act, Program.keeps_call, Program.keeps_done]
  refine ⟨contextLaw_of_plain trivial, ?_⟩
  rintro (fault | _)
  · exact .inl (named (.error fault)).uninterrupted
  refine ⟨contextLaw_of_plain trivial, fun _ => keeps_judged setting job contextLaw_of_watches
    ⟨?handed, ?_⟩⟩
  case handed =>
    rintro _ ⟨⟩
    exact ⟨j.deadline, adopted.dated, rfl⟩
  rintro (fault | _)
  · exact fun m => .inr ⟨phase, _, brokenOff_of_judged adopted rfl .finalizing m⟩
  · have finalized := (adopted.append (e := ⟨.finalize job.shard j.progress.lastLogTick
      j.progress.upperBound j.context, .ok ()⟩) rfl).uninterrupted
    exact ((register_plain setting job endpoint syncerId lockId).preserves
      (uninterrupted_stable clock setting job) j _ finalized).mono (fun _ _ _ => id)
      fun _ _ _ => .inl

theorem concludeHardLock_judges (endpoint : String) {fault : Fault} {j : Journal}
    {h : History surroundings}
    (failed : Uninterrupted h ∨ j.phase ≠ .addFollower ∧ Failed clock setting job fault h) :
    (concludeHardLock setting job endpoint (.error fault)).Keeps (ContextLaw clock setting job)
      (fun _ _ => Uninterrupted) (fun fault _ => Failed clock setting job fault) j h := by
  rcases failed with uninterrupted | ⟨phase, failed⟩
  · have plain := (concludeHardLock_uses setting job endpoint (.error fault)).mono
      fun _ => Call.Repairs.plain
    exact (plain.preserves (uninterrupted_stable clock setting job) j h uninterrupted).mono
      (fun _ _ _ => id) fun _ _ _ => .inl
  · simp only [concludeHardLock, Stage.keeps_bind, Stage.keeps_get, Stage.keeps_ite]
    exact ⟨fun found => absurd found.1 phase, fun _ => failed⟩

theorem catchUpHard_judges (endpoint : String) (syncerId : UInt64) {j : Journal}
    {h : History surroundings} (underWay : UnderWay clock setting job j h) :
    (catchUpHard setting job endpoint syncerId).Keeps (ContextLaw clock setting job)
      (fun _ _ => Uninterrupted) (fun fault _ => Failed clock setting job fault) j h := by
  have entered : UnderWay clock setting job { j with phase := .hardLockFinalize } h :=
    underWay.journal rfl
  unfold catchUpHard
  rw [Stage.keeps_bind, Stage.keeps_enter, Stage.keeps_bind]
  refine (acquireLock_judges clock setting job endpoint .hard _ entered).mono ?_ fun _ _ _ => id
  rintro guard _ h ⟨rfl, underWay⟩
  rw [Stage.keeps_bind, Stage.keeps_modify, Stage.keeps_bind, Stage.keeps_result]
  refine Stage.Keeps.mono (finalizeAndRegister_judges clock setting job endpoint syncerId
    guard.lockId ?held ?early) ?succeeded ?failed
  case held => exact underWay.journal rfl
  case early => exact nofun
  case succeeded =>
    intro _ j h uninterrupted
    rw [Stage.keeps_bind, Stage.keeps_act]
    exact ⟨contextLaw_of_plain trivial, fun answer =>
      uninterrupted.append (uninterrupted_singleton rfl)⟩
  case failed =>
    intro fault j h held
    rw [Stage.keeps_bind, Stage.keeps_act]
    refine ⟨contextLaw_of_plain trivial, fun answer => concludeHardLock_judges clock setting job
      endpoint ?_⟩
    rcases held with uninterrupted | ⟨phase, e, broken⟩
    · exact .inl (uninterrupted.append (uninterrupted_singleton rfl))
    · exact .inr ⟨phase, (broken.append rfl).failed fun _ => ⟨_, [], rfl, rfl⟩⟩

theorem work_judges {h : History surroundings} (uncounted : Uncounted {} h) :
    (work setting job).Keeps (ContextLaw clock setting job) (fun _ _ => Uninterrupted)
      (fun fault _ => Failed clock setting job fault) {} h := by
  have stable := uncounted_stable clock setting job
  have waits := stable.mono fun c (waits : c.Waits job) => waits.leads
  rw [work_eq, Stage.keeps_bind]
  refine (standBy_preserves setting job waits (stable.mono fun _ => Call.Looks.leads)
    (fun j phase h uncounted => ⟨uncounted.unlimited, uncounted.uncounted, uncounted.uninterrupted⟩)
    {} h uncounted).mono ?_ fun _ _ _ uncounted => .inl uncounted.uninterrupted
  intro _ j h uncounted
  rw [Stage.keeps_bind]
  refine (prepare_dates clock setting job uncounted).mono ?_ fun _ _ _ => id
  intro endpoint j h underWay
  rw [Stage.keeps_bind]
  refine (copyShard_judges clock setting job endpoint j h underWay).mono ?_ fun _ _ _ => id
  intro syncerId j h underWay
  rw [Stage.keeps_bind]
  refine (catchUpSoftly_judges clock setting job endpoint j h underWay).mono ?_ fun _ _ _ => id
  intro _ j h underWay
  rw [Stage.keeps_bind, Stage.keeps_unlessStopping]
  exact ⟨contextLaw_of_plain trivial, (underWay.append rfl).failed,
    catchUpHard_judges clock setting job endpoint syncerId (underWay.append rfl)⟩

def Ended : Option Fault → History surroundings → Prop
  | none => Uninterrupted
  | some fault => Failed clock setting job fault

theorem ended_stable (fault : Option Fault) :
    Stage.Stable (ContextLaw clock setting job) Call.Plain
      fun _ => Ended clock setting job fault := by
  cases fault with
  | none => exact uninterrupted_stable clock setting job
  | some fault => exact failed_stable clock setting job fault

theorem run_keeps_contextLaw :
    (run setting job).Keeps (ContextLaw clock setting job)
      (fun report h => Ended clock setting job report.fault h) [] := by
  have closes (fault : Option Fault) :=
    (ended_stable clock setting job fault).mono fun c (closes : c.Closes job) => closes.plain
  have begun (began : Instant) : Uncounted {} [⟨.now, began⟩] :=
    ⟨rfl, by simp [Call.countsDocuments], uninterrupted_singleton rfl⟩
  refine (keeps_run_of_stable setting job (contextLaw_of_plain trivial) closes
    fun began => work_judges clock setting job (begun began)).mono ?_
  rintro _ h ⟨j, fault, ⟨elapsed, rfl⟩, ended⟩
  exact ended

/-- What an attempt reports of a fault of its own that it judges at a moment: the first reason for
giving up that there is, if the fault counts and there is one. -/
structure Judged (deadline : Option Instant) (m : Moment) (own reported : Fault) : Prop where
  excused : own.countsAsFailure = false → reported = own
  stopping : own.countsAsFailure = true → m.stopping = true → reported = .shuttingDown
  late : own.countsAsFailure = true → m.stopping = false →
    (∃ d, deadline = some d ∧ d ≤ m.now) → reported = .attemptTimeout
  unplanned : own.countsAsFailure = true → m.stopping = false →
    (¬∃ d, deadline = some d ∧ d ≤ m.now) → ¬Planned setting job m →
    reported = .planChanged "not planned as follower anymore"
  kept : own.countsAsFailure = true → m.stopping = false →
    (¬∃ d, deadline = some d ∧ d ≤ m.now) → Planned setting job m → reported = own
  counted : reported.countsAsFailure = true ↔ own.countsAsFailure = true ∧ m.stopping = false ∧
    (¬∃ d, deadline = some d ∧ d ≤ m.now) ∧ Planned setting job m

theorem isPlanned_judgement (deadline : Option Instant) (m : Moment) :
    (judgement setting job deadline).isPlanned m.planned = true ↔ Planned setting job m :=
  holds_iff_planned

theorem judged_judge (deadline : Option Instant) (m : Moment) (own : Fault) :
    Judged setting job deadline m own ((judgement setting job deadline).judge m own) where
  excused := fun uncounted => if_neg (by simp [uncounted])
  stopping := fun counts stopping =>
    Context.judge_of_some counts (Context.verdict_eq_shutdown_iff.mpr stopping)
  late := fun counts goesOn late => Context.judge_of_some counts
    (Context.verdict_eq_deadlineExceeded_iff.mpr ⟨goesOn, Context.isLate_iff.mpr late⟩)
  unplanned := fun counts goesOn early unplanned => by
    rw [← isPlanned_judgement setting job deadline, Bool.not_eq_true] at unplanned
    exact Context.judge_of_some counts (Context.verdict_eq_noLongerPlanned_iff.mpr
      ⟨goesOn, Context.isLate_eq_false_iff.mpr early, unplanned⟩)
  kept := fun _ goesOn early planned => Context.judge_of_none (Context.verdict_eq_none_iff.mpr
    ⟨goesOn, Context.isLate_eq_false_iff.mpr early, (isPlanned_judgement ..).mpr planned⟩)
  counted := by
    rw [Context.judge_countsAsFailure, Context.verdict_eq_none_iff, Context.isLate_eq_false_iff,
      isPlanned_judgement]
    rfl

variable {clock setting job}

theorem BrokenOff.judged {e e' : Event surroundings} {before after rest h : History surroundings}
    {own fault : Fault} (broken : BrokenOff clock setting job e' rest fault h) (timed : Timed clock h)
    (split : h = before ++ e :: after) (interrupts : interruption e = some own) :
    e' = e ∧ ∃ counted cleanup, ∃ m : Moment, firstCount clock h = some counted ∧
      CleansUp e cleanup ∧
      after = cleanup ++
        ((judgement setting job (deadlineFrom setting job counted)).looksToJudge m own ++ rest) ∧
      Judged setting job (deadlineFrom setting job counted) m own fault := by
  obtain ⟨before', cleanup, own', m, deadline, same, interrupts', cleans, judged, dated, quiet, calm⟩ :=
    broken
  have fresh {later : History surroundings} (uninterrupted : Uninterrupted later) : e ∉ later := by
    intro mem
    rw [uninterrupted e mem] at interrupts
    cases interrupts
  have calmAfter := cleans.uninterrupted.append
    ((uninterrupted_looksToJudge (judgement setting job deadline) m own').append calm)
  -- The interruption is the only one, so it is where the history was split.
  obtain ⟨rfl, rfl, tail⟩ :=
    (List.append_cons_inj_of_notMem (fresh quiet) (fresh calmAfter)).mp (same.symm.trans split)
  obtain rfl : own' = own := Option.some.inj (interrupts'.symm.trans interrupts)
  rw [split] at timed
  obtain ⟨counted, first, rfl⟩ := dated timed.prefix
  refine ⟨rfl, counted, cleanup, m, ?_, cleans, tail.symm, judged ▸ judged_judge setting job _ m _⟩
  rw [split]
  exact firstCount_append first

/-- An interrupted attempt cleans up, judges its fault, and ends with the fault as it was judged; the
failures of its shard grow if the judgement changes nothing of a fault that counts, and only then. -/
theorem run_judges_interruptions {es before after : History surroundings} {e : Event surroundings}
    {own : Fault} {report : Report} (runs : Runs (run setting job) es report)
    (timed : Timed clock es) (split : es = before ++ e :: after)
    (interrupts : interruption e = some own) :
    ∃ counted cleanup rest reported, ∃ m : Moment,
      firstCount clock es = some counted ∧ CleansUp e cleanup ∧ Releases e rest ∧
      after = cleanup ++
        ((judgement setting job (deadlineFrom setting job counted)).looksToJudge m own ++ rest) ∧
      report.fault = some reported ∧
      Judged setting job (deadlineFrom setting job counted) m own reported ∧
      ∀ store : Maintenance.Store, (store.afterAll (upkeeps es)).failures job.key =
        if reported.countsAsFailure then store.failures job.key + 1 else store.failures job.key := by
  have ended : Ended clock setting job report.fault es :=
    (run_keeps_contextLaw clock setting job).ended runs
  have interrupted : ¬Uninterrupted es := by
    intro uninterrupted
    rw [uninterrupted e (by simp [split])] at interrupts
    cases interrupts
  cases fault : report.fault with
  | none =>
    rw [fault] at ended
    exact absurd ended interrupted
  | some reported =>
    rw [fault] at ended
    obtain ⟨e', rest, broken, releases⟩ := ended.resolve_left interrupted
    obtain ⟨rfl, counted, cleanup, m, first, cleans, tail, judged⟩ :=
      broken.judged timed split interrupts
    exact ⟨counted, cleanup, rest, reported, m, first, cleans, releases, tail, rfl, judged,
      fun store => (booked_of_runs setting job runs store).counted reported fault⟩

end

end

def revisionJob : Job := { calmJob with syncByRevision := true }

def hastySetting : Setting where
  __ := calmSetting
  settings := { calmSetting.settings with attemptTimeout := some (.ofSecs 5) }

def slowly (h : History surroundings) : (c : Call) → Option c.Reply
  | .now => some (h.length * nanosPerSecond)
  | .catchUp .. => some (.error (.network "connection reset"))
  | _ => none

def lateRun : History surroundings × Option Report :=
  (run hastySetting revisionJob).play
    (Program.noting (S := surroundings) fun h c => (slowly h c).or (calm c)) []

instance (clock : Nat → Instant) (h : History surroundings) : Decidable (Timed clock h) :=
  inferInstanceAs (Decidable (∀ n < h.length, ∀ t ∈ h[n]?.bind reading, t = clock n))

theorem lateRun_judges_interruption :
    let es := lateRun.1
    ∃ e report, Runs (run hastySetting revisionJob) es report ∧ Timed (· * nanosPerSecond) es ∧
      es = es.take 18 ++ e :: es.drop 19 ∧
      interruption e = some (.network "connection reset") ∧
      ∃ counted cleanup rest, ∃ m : Moment,
        firstCount (· * nanosPerSecond) es = some counted ∧ CleansUp e cleanup ∧ Releases e rest ∧
        es.drop 19 = cleanup ++ ((judgement hastySetting revisionJob (deadlineFrom hastySetting
          revisionJob counted)).looksToJudge m (.network "connection reset") ++ rest) ∧
        report.fault = some .attemptTimeout ∧
        Judged hastySetting revisionJob (deadlineFrom hastySetting revisionJob counted) m
          (.network "connection reset") .attemptTimeout ∧
        ∀ store : Maintenance.Store, (store.afterAll (upkeeps es)).failures revisionJob.key =
          store.failures revisionJob.key := by
  intro es
  have ends : lateRun.2.map Report.fault = some (some .attemptTimeout) := by decide +kernel
  have timed : Timed (· * nanosPerSecond) es := by decide +kernel
  have fails : es[18]?.bind interruption = some (.network "connection reset") := by decide +kernel
  obtain ⟨report, ended, late⟩ := Option.map_eq_some_iff.mp ends
  have runs : Runs (run hastySetting revisionJob) es report := Program.runs_of_played ended
  obtain ⟨e, found, interrupts⟩ := Option.bind_eq_some_iff.mp fails
  obtain ⟨lt, rfl⟩ := List.getElem?_eq_some_iff.mp found
  have split : es = es.take 18 ++ es[18] :: es.drop 19 := by
    rw [← List.drop_eq_getElem_cons, List.take_append_drop]
  obtain ⟨counted, cleanup, rest, reported, m, first, cleans, releases, tail, reports, judged, books⟩ :=
    run_judges_interruptions runs timed split interrupts
  obtain rfl : reported = .attemptTimeout := Option.some.inj (reports.symm.trans late)
  exact ⟨_, report, runs, timed, split, interrupts, counted, cleanup, rest, m, first, cleans, releases,
    tail, late, judged, books⟩

end FollowerSync.Attempt
