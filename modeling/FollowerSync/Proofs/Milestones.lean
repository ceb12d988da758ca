import FollowerSync.Proofs.Footprints

/-!
# Milestones of an attempt

The values that meet in the request of a registration come from four phases. What a run has got
done on the way there is kept in a list of milestones, and each part of an attempt is described by
the milestones it adds. Up to the hard lock these are the counts on both sides and the copy.
-/

set_option autoImplicit false

namespace FollowerSync.Attempt
open Leader

/-- What a run has got done, as far as its registration and its report rest on it. -/
inductive Milestone where
  | leaderCounted (answer : Except Fault UInt64)
  | counted (answer : Except Fault UInt64)
  | copied (outcome : BulkOutcome)
  | granted (lock : LockRequest) (grant : LockGrant)
  | finalizing (start : Tick) (upperBound : Option Tick)
  | registering (request : AddFollowerRequest) (accepted : Bool)

/-- Soft locks do not count: a registration rests on the hard one. -/
def milestone : Event surroundings → Option Milestone
  | ⟨.leader _ (.collectionCount ..) _, answer⟩ => some (.leaderCounted answer)
  | ⟨.documentCount, answer⟩ => some (.counted answer)
  | ⟨.bulkSync .., .ok outcome⟩ => some (.copied outcome)
  | ⟨.leader _ (.acquireLock lock) _, .ok grant⟩ =>
    if lock.mode = .hard then some (.granted lock grant) else none
  | ⟨.finalize _ start upperBound _, _⟩ => some (.finalizing start upperBound)
  | ⟨.leader _ (.addFollower request) _, .ok _⟩ => some (.registering request true)
  | ⟨.leader _ (.addFollower request) _, .error _⟩ => some (.registering request false)
  | _ => none

def milestones (h : History surroundings) : List Milestone := h.filterMap milestone

def Call.isRegistration : Call → Bool
  | .leader _ (.addFollower _) _ => true
  | _ => false

def Call.Ordinary (c : Call) : Prop := c.isRegistration = false

def Call.Silent (c : Call) : Prop := ∀ r, milestone ⟨c, r⟩ = none

/-- What a registration by `credentials.request` rests on, when all that was called before it is
`before`. -/
structure Credentials (job : Job) (endpoint : String) (before : History surroundings) where
  opening : History surroundings
  bulk : BulkRequest
  bulkContext : Context
  copy : BulkOutcome
  lock : LockRequest
  limit : Duration
  grant : LockGrant
  /-- What was called since the lock was granted. -/
  held : History surroundings
  start : Tick
  finalContext : Context
  count : UInt64
  copied : ⟨.bulkSync bulk bulkContext, .ok copy⟩ ∈ opening
  shardFirst : copy.processed.head? = some job.shard
  hard : lock.mode = .hard
  ofShard : lock.database = job.database ∧ lock.collection = job.shard
  granted : before = opening ++ ⟨.leader endpoint (.acquireLock lock) limit, .ok grant⟩ :: held
  stillHeld : ∀ e ∈ held, ∀ endpoint database lockId clientId limit,
    e.call ≠ .leader endpoint (.cancelLock database lockId clientId) limit
  inOrder : List.Sublist [⟨.setLeader (grant.term.leaderId job.leader), .ok ()⟩,
    ⟨.followLeader (grant.term.leaderId job.leader), ()⟩,
    ⟨.finalize job.shard start grant.lastLogTick finalContext, .ok ()⟩,
    ⟨.documentCount, .ok count⟩] held

def Credentials.request {job : Job} {endpoint : String} {before : History surroundings}
    (c : Credentials job endpoint before) (setting : Setting) : AddFollowerRequest where
  database := job.database
  followerId := setting.server
  shard := job.shard
  checksum := c.count
  syncerId := c.copy.syncerId
  clientId := job.clientId
  clientInfo := job.clientInfo setting.server
  lockId := c.lock.lockId

/-- A registration is the first one and has credentials. Other calls are free. -/
def RegistrationLaw (setting : Setting) (job : Job) (h : History surroundings) (c : Call) : Prop :=
  ∀ endpoint request limit, c = .leader endpoint (.addFollower request) limit →
    (∀ e ∈ h, Call.isRegistration e.call = false) ∧
      ∃ credentials : Credentials job endpoint h, request = credentials.request setting

section
variable {h : History surroundings} {c : Call} {e : Event surroundings} {m : Milestone}
  {marks : List Milestone}

theorem mem_milestones : m ∈ milestones h ↔ ∃ e ∈ h, milestone e = some m := mem_marks

theorem milestones_of_none (start : milestones h = marks) (quiet : milestone e = none) :
    milestones (h ++ [e]) = marks := marks_of_none start quiet

theorem milestones_of_some (start : milestones h = marks) (reached : milestone e = some m) :
    milestones (h ++ [e]) = marks ++ [m] := marks_of_some start reached

theorem Call.Silent.ordinary (silent : c.Silent) : c.Ordinary := by
  cases c with
  | leader endpoint request limit => cases request <;> first | rfl | cases silent (.ok ())
  | _ => rfl

theorem law_of_ordinary {setting : Setting} {job : Job} (ordinary : c.Ordinary) :
    RegistrationLaw setting job h c := by
  rintro endpoint request limit rfl
  cases ordinary

theorem Call.Looks.silent (looks : c.Looks) : c.Silent := by
  cases c <;> first | exact fun _ => rfl | cases looks

theorem Call.Waits.silent {job : Job} (waits : c.Waits job) : c.Silent := by
  cases c <;> first | exact fun _ => rfl | cases waits

theorem Call.Closes.silent {job : Job} (closes : c.Closes job) : c.Silent := by
  cases c <;> first | exact fun _ => rfl | cases closes

theorem exists_of_isRegistration (registers : c.isRegistration = true) :
    ∃ endpoint request limit, c = .leader endpoint (.addFollower request) limit := by
  unfold Call.isRegistration at registers
  split at registers
  · exact ⟨_, _, _, rfl⟩
  · cases registers

theorem registering_of_isRegistration (registers : Call.isRegistration e.call = true) :
    ∃ request accepted, milestone e = some (.registering request accepted) := by
  obtain ⟨c, r⟩ := e
  obtain ⟨endpoint, request, limit, rfl⟩ := exists_of_isRegistration registers
  rcases r with fault | _
  · exact ⟨request, false, rfl⟩
  · exact ⟨request, true, rfl⟩

theorem bulkSync_of_copied {outcome : BulkOutcome} (copied : .copied outcome ∈ milestones h) :
    ∃ request context, ⟨.bulkSync request context, .ok outcome⟩ ∈ h := by
  obtain ⟨e, mem, reached⟩ := mem_milestones.mp copied
  unfold milestone at reached
  split at reached <;> simp_all
  exact ⟨_, _, mem⟩

theorem addFollower_of_registering {request : AddFollowerRequest}
    (accepted : .registering request true ∈ milestones h) :
    ∃ endpoint limit, ⟨.leader endpoint (.addFollower request) limit, .ok ()⟩ ∈ h := by
  obtain ⟨e, mem, reached⟩ := mem_milestones.mp accepted
  unfold milestone at reached
  split at reached <;> simp_all
  subst reached
  exact ⟨_, _, mem⟩

end

def Journal.counts (j : Journal) : List Milestone :=
  [.leaderCounted (.ok j.initialLeaderCount), .counted (.ok j.initialFollowerCount)]

@[simp] theorem registering_not_mem_counts (j : Journal) (request : AddFollowerRequest)
    (accepted : Bool) : .registering request accepted ∉ j.counts := by
  simp [Journal.counts]

def Marked (counts marks : List Milestone) (j : Journal) (h : History surroundings) : Prop :=
  j.counts = counts ∧ milestones h = marks

def Unregistered (h : History surroundings) : Prop :=
  ∀ request, .registering request true ∉ milestones h

section
variable (setting : Setting) (job : Job) (counts marks : List Milestone)

theorem silent_stable :
    Stage.Stable (RegistrationLaw setting job) Call.Silent (Marked counts marks) where
  allowed := fun _ _ _ _ silent => law_of_ordinary silent.ordinary
  kept := by
    rintro j h c r ⟨same, start⟩ silent
    exact ⟨same, milestones_of_none start (silent r)⟩

theorem looks_marked :
    Stage.Stable (RegistrationLaw setting job) Call.Looks (Marked counts marks) :=
  (silent_stable setting job counts marks).mono fun _ => Call.Looks.silent

def Uneventful {α : Type} (s : Stage α) : Prop :=
  ∀ counts marks, s.Preserves (RegistrationLaw setting job) (Marked counts marks)

end

section
variable {α β : Type} {setting : Setting} {job : Job}

@[simp] theorem uneventful_pure (a : α) : Uneventful setting job (pure a : Stage α) :=
  fun _ _ => Stage.preserves_pure a

@[simp] theorem uneventful_throw (fault : Fault) : Uneventful setting job (throw fault : Stage α) :=
  fun _ _ => Stage.preserves_throw fault

@[simp] theorem uneventful_get : Uneventful setting job (get : Stage Journal) :=
  fun _ _ => Stage.preserves_get

theorem uneventful_modify {f : Journal → Journal} (same : ∀ j, (f j).counts = j.counts) :
    Uneventful setting job (modify f : Stage Unit) := by
  intro counts marks
  refine Stage.preserves_modify ?_
  rintro j h ⟨start, reached⟩
  exact ⟨(same j).trans start, reached⟩

theorem uneventful_enter (phase : Phase) : Uneventful setting job (Stage.enter phase) :=
  uneventful_modify fun _ => rfl

theorem Uneventful.bind {s : Stage α} {f : α → Stage β} (first : Uneventful setting job s)
    (rest : ∀ a, Uneventful setting job (f a)) : Uneventful setting job (s >>= f) :=
  fun counts marks => (first counts marks).bind fun a => rest a counts marks

theorem uneventful_act {p : Act α} (u : p.Uses Call.Silent) :
    Uneventful setting job (Stage.act p) :=
  fun counts marks => Stage.preserves_act (silent_stable setting job counts marks) u

theorem uneventful_attempt {p : Act (Except Fault α)} (u : p.Uses Call.Silent) :
    Uneventful setting job (Stage.attempt p) :=
  fun counts marks => Stage.preserves_attempt (silent_stable setting job counts marks) u

theorem uneventful_classify (fault : Fault) :
    Uneventful setting job (classify setting job fault) :=
  fun counts marks => classify_preserves setting job (looks_marked setting job counts marks) fault

theorem uneventful_classified {p : Act (Except Fault α)} (u : p.Uses Call.Silent) :
    Uneventful setting job (classified setting job p) := by
  refine (uneventful_act u).bind ?_
  rintro (fault | a)
  · exact (uneventful_classify fault).bind fun _ => uneventful_throw _
  · exact uneventful_pure a

theorem uneventful_unlessStopping : Uneventful setting job Stage.unlessStopping := by
  refine .bind (uneventful_act ⟨fun _ => rfl, fun _ => trivial⟩) fun stopping => ?_
  cases stopping <;> simp

end

section
variable (setting : Setting) (job : Job) (endpoint : String)

theorem Call.Handshakes.silent {c : Call} (handshakes : c.Handshakes .soft) : c.Silent := by
  cases c with
  | leader endpoint request limit =>
    cases request with
    | acquireLock lock =>
      have soft : lock.mode = .soft := handshakes
      rintro (fault | grant)
      · rfl
      · simp [milestone, soft]
    | newLockId | cancelLock => exact fun _ => rfl
    | _ => cases handshakes
  | _ => cases handshakes

theorem softRound_uneventful (budget : Duration) :
    Uneventful setting job (softRound setting job endpoint budget) := by
  refine uneventful_unlessStopping.bind fun _ => .bind ?locked fun guard =>
    .bind uneventful_get fun j => .bind ?followed ?released
  case locked =>
    exact uneventful_classified ((acquire_handshakes ..).mono fun _ => Call.Handshakes.silent)
  case followed => exact uneventful_act ⟨fun _ => rfl, fun _ => trivial⟩
  case released =>
    rintro (fault | outcome)
    · refine .bind (uneventful_act ⟨fun _ => rfl, fun _ => trivial⟩) fun _ => ?_
      exact (uneventful_classify fault).bind fun _ => uneventful_throw _
    · refine .bind (uneventful_attempt ⟨fun _ => rfl, fun _ => trivial⟩) fun _ => ?_
      exact .bind (uneventful_modify fun _ => rfl) fun _ => uneventful_pure _

theorem catchUpSoftly_uneventful : Uneventful setting job (catchUpSoftly setting job endpoint) :=
  fun counts marks => catchUpSoftly_leads setting job endpoint (fun _ _ => id)
    (fun _ _ _ => law_of_ordinary rfl)
    fun budget => softRound_uneventful setting job endpoint budget counts marks

end

section
variable {α β : Type} {setting : Setting} {job : Job} {counts marks : List Milestone}
  {j : Journal} {h : History surroundings}

theorem unregistered_of_marks (start : milestones h = marks)
    (free : ∀ request, .registering request true ∉ marks) : Unregistered h := by
  unfold Unregistered
  rwa [start]

theorem Uneventful.andThen {s : Stage α} {f : α → Stage β}
    {Q : β → Journal → History surroundings → Prop} (quiet : Uneventful setting job s)
    (start : Marked counts marks j h) (free : ∀ request, .registering request true ∉ marks)
    (rest : ∀ a j h, Marked counts marks j h →
      (f a).Keeps (RegistrationLaw setting job) Q (fun _ _ => Unregistered) j h) :
    (s >>= f).Keeps (RegistrationLaw setting job) Q (fun _ _ => Unregistered) j h := by
  rw [Stage.keeps_bind]
  refine (quiet counts marks j h start).mono rest ?_
  rintro fault j h ⟨_, reached⟩
  exact unregistered_of_marks reached free

end

section
variable (setting : Setting) (job : Job) (endpoint : String)

theorem standBy_uneventful : Uneventful setting job (standBy setting job) := by
  intro counts marks
  have stable := silent_stable setting job counts marks
  exact standBy_preserves setting job (stable.mono fun _ => Call.Waits.silent)
    (stable.mono fun _ => Call.Looks.silent) fun _ _ _ => id

theorem lookupShard_uneventful : Uneventful setting job (lookupShard job) := by
  refine .bind (uneventful_attempt ⟨fun _ => rfl, fun _ => trivial⟩) fun found => ?_
  cases found <;> simp

theorem checkRequeue_uneventful : Uneventful setting job (checkRequeue setting job) := by
  refine .bind uneventful_get fun j => ?_
  dsimp only
  split
  · exact uneventful_pure _
  · exact .bind (uneventful_act ⟨fun _ => rfl, fun _ => trivial⟩) fun _ => uneventful_throw _

theorem startAttemptClock_uneventful :
    Uneventful setting job (startAttemptClock setting job) := by
  unfold startAttemptClock
  split
  · split
    · have silent (d : Duration) := (momentAfter_uses d).mono fun _ watches => watches.looks.silent
      refine .bind (uneventful_act (silent _)) fun deadline => uneventful_modify fun _ => rfl
    · exact uneventful_pure _
  · exact uneventful_pure _

theorem readInitialCounts_keeps {j : Journal} {h : History surroundings}
    (start : milestones h = []) :
    (readInitialCounts setting job endpoint).Keeps (RegistrationLaw setting job)
      (fun _ j h => milestones h = j.counts) (fun _ _ => Unregistered) j h := by
  simp only [readInitialCounts, ask_eq, Stage.keeps_bind, Stage.keeps_attempt, Stage.keeps_modify,
    Program.keeps_call, Program.keeps_done]
  refine ⟨law_of_ordinary rfl, ?_⟩
  rintro (fault | onLeader)
  · exact unregistered_of_marks (milestones_of_some start rfl) (by simp)
  · have first := milestones_of_some start (e := ⟨.leader endpoint
      (.collectionCount job.database job.shard) setting.settings.leaderCountTimeout,
      .ok onLeader⟩) rfl
    refine ⟨law_of_ordinary rfl, ?_⟩
    rintro (fault | here)
    · exact unregistered_of_marks (milestones_of_some first rfl) (by simp)
    · exact milestones_of_some first rfl

theorem prepare_keeps {j : Journal} {h : History surroundings} (start : milestones h = []) :
    (prepare setting job).Keeps (RegistrationLaw setting job)
      (fun _ j h => milestones h = j.counts) (fun _ _ => Unregistered) j h := by
  refine (uneventful_enter .prepare).andThen ⟨rfl, start⟩ (by simp) fun _ j h marked => ?_
  refine (lookupShard_uneventful setting job).andThen marked (by simp) fun _ j h marked => ?_
  refine Uneventful.andThen (uneventful_attempt ⟨fun _ => rfl, fun _ => trivial⟩) marked (by simp)
    fun endpoint j h marked => ?_
  rw [Stage.keeps_bind]
  refine (readInitialCounts_keeps setting job endpoint marked.2).mono ?_ fun _ _ _ => id
  intro _ j h counted
  have free : ∀ request, .registering request true ∉ j.counts := by simp
  refine (checkRequeue_uneventful setting job).andThen ⟨rfl, counted⟩ free fun _ j h marked => ?_
  refine (startAttemptClock_uneventful setting job).andThen marked free fun _ j h marked => ?_
  refine Uneventful.andThen (uneventful_act ⟨fun _ => rfl, fun _ => trivial⟩) marked free
    fun _ j h marked => ?_
  refine uneventful_unlessStopping.andThen marked free fun _ j h marked => ?_
  exact marked.2.trans marked.1.symm

def Copied (syncerId : UInt64) (j : Journal) (h : History surroundings) : Prop :=
  ∃ outcome : BulkOutcome, outcome.syncerId = syncerId ∧
    outcome.processed.head? = some job.shard ∧ milestones h = j.counts ++ [.copied outcome]

theorem copyShard_keeps {j : Journal} {h : History surroundings} (start : milestones h = j.counts) :
    (copyShard setting job endpoint).Keeps (RegistrationLaw setting job) (Copied job)
      (fun _ _ => Unregistered) j h := by
  have free : ∀ request, .registering request true ∉ j.counts := by simp
  have named (answer : Except Fault Unit) := milestones_of_none start
    (e := ⟨.setLeader job.leader, answer⟩) rfl
  have opened := milestones_of_none (named (.ok ())) (e := ⟨.openBulkSyncer job.database, ()⟩) rfl
  rw [keeps_copyShard]
  refine ⟨law_of_ordinary rfl, fun fault => unregistered_of_marks (named (.error fault)) free,
    law_of_ordinary rfl, law_of_ordinary rfl, fun fault => ?failed, fun outcome => ?copied⟩
  case failed =>
    have failed := milestones_of_none opened (e := ⟨.bulkSync (bulkRequest setting job endpoint
      j.initialFollowerCount) (j.plannedContext setting job), .error fault⟩) rfl
    refine (classify_preserves setting job (looks_marked setting job j.counts j.counts) fault
      { j with phase := .bulkSync } _ ⟨rfl, failed⟩).mono ?_ ?_
    · rintro _ _ h ⟨_, reached⟩
      exact unregistered_of_marks reached free
    · rintro _ _ h ⟨_, reached⟩
      exact unregistered_of_marks reached free
  case copied =>
    have copied := milestones_of_some opened (e := ⟨.bulkSync (bulkRequest setting job endpoint
      j.initialFollowerCount) (j.plannedContext setting job), .ok outcome⟩) rfl
    refine ⟨fun _ => unregistered_of_marks copied (by simp), fun first => ⟨outcome, rfl, ?_, copied⟩⟩
    exact Decidable.not_not.mp first

end

end FollowerSync.Attempt
