import FollowerSync.Proofs.Milestones

set_option autoImplicit false

namespace FollowerSync.Attempt
open Leader

section
variable (setting : Setting) (job : Job) (endpoint : String)

def HardLocked (counts marks : List Milestone) (guard : Guard) (j : Journal)
    (h : History surroundings) : Prop :=
  j.counts = counts ∧ ∃ (opening : History surroundings) (lock : LockRequest) (limit : Duration),
    milestones opening = marks ∧ lock.mode = .hard ∧
      (lock.database = job.database ∧ lock.collection = job.shard) ∧ lock.lockId = guard.lockId ∧
      h = opening ++ [⟨.leader endpoint (.acquireLock lock) limit, .ok guard.grant⟩]

theorem acquireLock_hard_keeps {counts marks : List Milestone} {ttl : Duration} {j : Journal}
    {h : History surroundings} (start : Marked counts marks j h) :
    (acquireLock setting job endpoint .hard ttl).Keeps (RegistrationLaw setting job)
      (HardLocked job endpoint counts marks) (fun _ => Marked counts marks) j h := by
  obtain ⟨same, reached⟩ := start
  have fetched (answer : Except Fault UInt64) := milestones_of_none reached
    (e := ⟨.leader endpoint (.newLockId job.database) ttl, answer⟩) rfl
  refine keeps_classified setting job (looks_marked setting job counts marks)
    ((keeps_acquire ..).mpr ⟨law_of_ordinary rfl, fun fault => ⟨same, fetched _⟩, fun lockId => ?_⟩)
  refine ⟨law_of_ordinary rfl, fun grant => ?granted, fun fault => ?refused⟩
  case granted => exact ⟨same, _, _, _, fetched _, rfl, ⟨rfl, rfl⟩, rfl, rfl⟩
  case refused =>
    have refused := milestones_of_none (fetched (.ok lockId)) (e := ⟨.leader endpoint (.acquireLock
      { lockRequest setting job .hard ttl with lockId }) ttl, .error fault⟩) rfl
    refine ⟨fun _ => ⟨same, refused⟩, fun _ => ⟨law_of_ordinary rfl, fun answer => ⟨same, ?_⟩⟩⟩
    exact milestones_of_none refused rfl

def Registered (request : AddFollowerRequest) (j : Journal) (h : History surroundings) : Prop :=
  ∃ outcome lock grant,
    milestones h = j.counts ++ [.copied outcome, .granted lock grant,
      .finalizing j.progress.lastLogTick j.progress.upperBound, .counted (.ok j.docCountAtEnd),
      .registering request true] ∧
    j.docCountAtEnd = request.checksum ∧ j.term = grant.term ∧
    j.progress.upperBound = grant.lastLogTick

section
variable {counts marks : List Milestone} {j : Journal} {h : History surroundings}

theorem registered_stable (request : AddFollowerRequest) :
    Stage.Stable (RegistrationLaw setting job) Call.Silent (Registered request) where
  allowed := fun _ _ _ _ silent => law_of_ordinary silent.ordinary
  kept := by
    rintro j h c r ⟨outcome, lock, grant, reached, rest⟩ silent
    exact ⟨outcome, lock, grant, milestones_of_none reached (silent r), rest⟩

theorem adoptTerm_keeps (start : Marked counts marks j h) :
    (adoptTerm job).Keeps (RegistrationLaw setting job)
      (fun _ j' h' => j' = j ∧ h' = h ++ [⟨.setLeader (j.term.leaderId job.leader), .ok ()⟩] ++
        [⟨.followLeader (j.term.leaderId job.leader), ()⟩])
      (fun _ => Marked counts marks) j h := by
  simp only [adoptTerm, ask_eq, Stage.keeps_bind, Stage.keeps_get, Stage.keeps_attempt,
    Stage.keeps_act, Program.keeps_call, Program.keeps_done]
  refine ⟨law_of_ordinary rfl, ?_⟩
  rintro (fault | _)
  · exact ⟨start.1, milestones_of_none start.2 rfl⟩
  · exact ⟨law_of_ordinary rfl, fun _ => ⟨rfl, rfl⟩⟩

theorem finalizeLog_keeps (start : Marked counts marks j h) :
    (finalizeLog setting job).Keeps (RegistrationLaw setting job)
      (fun _ j' h' => j' = j ∧ h' = h ++ [⟨.finalize job.shard j.progress.lastLogTick
        j.progress.upperBound j.context, .ok ()⟩])
      (fun _ => Marked counts
        (marks ++ [.finalizing j.progress.lastLogTick j.progress.upperBound])) j h := by
  simp only [finalizeLog, Stage.keeps_bind, Stage.keeps_get]
  refine keeps_classified setting job (looks_marked setting job _ _) ⟨law_of_ordinary rfl, ?_⟩
  rintro (fault | _)
  · exact ⟨start.1, milestones_of_some start.2 rfl⟩
  · exact ⟨rfl, rfl⟩

theorem register_keeps {syncerId lockId : UInt64} (start : milestones h = marks)
    (free : ∀ request accepted, .registering request accepted ∉ marks)
    (earned : ∀ checksum : UInt64,
      ∃ credentials : Credentials job endpoint (h ++ [⟨.documentCount, .ok checksum⟩]),
        addFollowerRequest setting job checksum syncerId lockId = credentials.request setting) :
    (register setting job endpoint syncerId lockId).Keeps (RegistrationLaw setting job)
      (fun _ j' h' => ∃ checksum : UInt64,
        j' = { j with phase := .addFollower, docCountAtEnd := checksum } ∧
        milestones h' = marks ++ [.counted (.ok checksum), .registering
          (addFollowerRequest setting job checksum syncerId lockId) true])
      (fun _ _ => Unregistered) j h := by
  simp only [register, ask_eq, Stage.keeps_bind, Stage.keeps_enter, Stage.keeps_attempt,
    Stage.keeps_modify, Program.keeps_call, Program.keeps_done]
  refine ⟨law_of_ordinary rfl, ?_⟩
  rintro (fault | checksum)
  · refine unregistered_of_marks (milestones_of_some start rfl) ?_
    simp [free]
  · have counted := milestones_of_some start (e := ⟨.documentCount, .ok checksum⟩) rfl
    refine ⟨?_, ?_⟩
    · rintro endpoint' request limit ⟨⟩
      refine ⟨fun e mem => ?_, earned checksum⟩
      rw [Bool.eq_false_iff]
      intro registers
      obtain ⟨request, accepted, reached⟩ := registering_of_isRegistration registers
      have earlier := mem_milestones.mpr ⟨e, mem, reached⟩
      simp [counted, free] at earlier
    · rintro (fault | _)
      · refine unregistered_of_marks (milestones_of_some counted rfl) ?_
        simp [free]
      · refine ⟨checksum, rfl, (milestones_of_some counted rfl).trans ?_⟩
        rw [List.append_assoc]
        rfl

end

/-- What was called under the hard lock, when the count of the documents is known. -/
def underLock (j : Journal) (checksum : UInt64) : History surroundings :=
  [⟨.setLeader (j.term.leaderId job.leader), .ok ()⟩,
    ⟨.followLeader (j.term.leaderId job.leader), ()⟩,
    ⟨.finalize job.shard j.progress.lastLogTick j.progress.upperBound j.context, .ok ()⟩,
    ⟨.documentCount, .ok checksum⟩]

theorem addFollowerRequest_earned {copy : BulkOutcome} {guard : Guard} {j : Journal}
    {h : History surroundings}
    (locked : HardLocked job endpoint j.counts (j.counts ++ [.copied copy]) guard j h)
    (first : copy.processed.head? = some job.shard) (term : j.term = guard.grant.term)
    (bound : j.progress.upperBound = guard.grant.lastLogTick) (checksum : UInt64) :
    ∃ credentials : Credentials job endpoint (h ++ underLock job j checksum),
      addFollowerRequest setting job checksum copy.syncerId guard.lockId =
        credentials.request setting := by
  obtain ⟨-, opening, lock, limit, reached, hard, ofShard, lockId, rfl⟩ := locked
  have copied : .copied copy ∈ milestones opening := by simp [reached]
  obtain ⟨bulk, bulkContext, copied⟩ := bulkSync_of_copied copied
  refine ⟨{ opening, bulk, bulkContext, copy, lock, limit, grant := guard.grant
            held := underLock job j checksum, start := j.progress.lastLogTick
            finalContext := j.context, count := checksum, copied, shardFirst := first, hard
            ofShard, granted := ?_, stillHeld := ?_, inOrder := ?_ }, ?_⟩
  · simp
  · simp [underLock]
  · rw [← term, ← bound]
    exact .refl _
  · simp [addFollowerRequest, Credentials.request, lockId]

theorem finalizeAndRegister_keeps {copy : BulkOutcome} {guard : Guard} {j : Journal}
    {h : History surroundings}
    (locked : HardLocked job endpoint j.counts (j.counts ++ [.copied copy]) guard j h)
    (first : copy.processed.head? = some job.shard) (term : j.term = guard.grant.term)
    (bound : j.progress.upperBound = guard.grant.lastLogTick) :
    (finalizeAndRegister setting job endpoint copy.syncerId guard.lockId).Keeps
      (RegistrationLaw setting job) (fun _ j h => ∃ request, Registered request j h)
      (fun _ _ => Unregistered) j h := by
  have earned := addFollowerRequest_earned setting job endpoint locked first term bound
  obtain ⟨-, opening, lock, limit, reached, hard, -, -, rfl⟩ := locked
  have granted := milestones_of_some reached (e := ⟨.leader endpoint (.acquireLock lock) limit,
    .ok guard.grant⟩) (m := .granted lock guard.grant) (by simp [milestone, hard])
  unfold finalizeAndRegister
  rw [Stage.keeps_bind]
  refine (adoptTerm_keeps setting job ⟨rfl, granted⟩).mono ?adopted ?_
  case adopted =>
    rintro _ j _ ⟨rfl, rfl⟩
    have adopted := milestones_of_none (milestones_of_none granted (e := ⟨.setLeader
      (j.term.leaderId job.leader), .ok ()⟩) rfl) (e := ⟨.followLeader
      (j.term.leaderId job.leader), ()⟩) rfl
    rw [Stage.keeps_bind]
    refine (finalizeLog_keeps setting job ⟨rfl, adopted⟩).mono ?finalized ?_
    case finalized =>
      rintro _ j _ ⟨rfl, rfl⟩
      have finalized := milestones_of_some adopted (e := ⟨.finalize job.shard
        j.progress.lastLogTick j.progress.upperBound j.context, .ok ()⟩) rfl
      refine (register_keeps setting job endpoint finalized (by simp) ?_).mono ?_
        fun _ _ _ => id
      · intro checksum
        rw [List.append_assoc, List.append_assoc, List.append_assoc]
        exact earned checksum
      · rintro _ _ _ ⟨checksum, rfl, registered⟩
        refine ⟨addFollowerRequest setting job checksum copy.syncerId guard.lockId, copy, lock,
          guard.grant, ?_, rfl, term, bound⟩
        simpa [Journal.counts] using registered
    · rintro fault j' h' ⟨_, stayed⟩
      exact unregistered_of_marks stayed (by simp)
  · rintro fault j' h' ⟨_, stayed⟩
    exact unregistered_of_marks stayed (by simp)

theorem Call.Repairs.ordinary {c : Call} (repairs : c.Repairs) : c.Ordinary := by
  cases c with
  | leader endpoint request limit => cases request <;> first | rfl | cases repairs
  | _ => rfl

theorem ordinary_stable :
    Stage.Stable (RegistrationLaw setting job) Call.Ordinary fun _ => Unregistered where
  allowed := fun _ _ _ _ ordinary => law_of_ordinary ordinary
  kept := by
    intro _ h c r unregistered ordinary request registered
    obtain ⟨e, mem, reached⟩ := mem_milestones.mp registered
    rcases List.mem_append.mp mem with earlier | last
    · exact unregistered request (mem_milestones.mpr ⟨e, earlier, reached⟩)
    · obtain rfl := List.mem_singleton.mp last
      unfold milestone at reached
      split at reached <;> simp_all [Call.Ordinary, Call.isRegistration]

theorem concludeHardLock_error_keeps {Q : Unit → Journal → History surroundings → Prop}
    {fault : Fault} {j : Journal} {h : History surroundings} (unregistered : Unregistered h) :
    (concludeHardLock setting job endpoint (.error fault)).Keeps (RegistrationLaw setting job) Q
      (fun _ _ => Unregistered) j h := by
  have ordinary := (repairChecksum_uses setting job endpoint).mono fun _ => Call.Repairs.ordinary
  have repaired := ordinary.preserves (ordinary_stable setting job) j h unregistered
  simp only [concludeHardLock, Stage.keeps_bind, Stage.keeps_get, Stage.keeps_ite,
    Stage.keeps_throw]
  exact ⟨fun _ => repaired, fun _ => unregistered⟩

theorem catchUpHard_keeps {copy : BulkOutcome} {j : Journal} {h : History surroundings}
    (first : copy.processed.head? = some job.shard)
    (copied : milestones h = j.counts ++ [.copied copy]) :
    (catchUpHard setting job endpoint copy.syncerId).Keeps (RegistrationLaw setting job)
      (fun _ j h => ∃ request, Registered request j h) (fun _ _ => Unregistered) j h := by
  have free : ∀ request, .registering request true ∉ j.counts ++ [.copied copy] := by simp
  refine (uneventful_enter _).andThen ⟨rfl, copied⟩ free fun _ j' h marked => ?_
  rw [Stage.keeps_bind]
  refine (acquireLock_hard_keeps setting job endpoint marked).mono ?_ ?_
  · rintro guard j' h ⟨same, locked⟩
    have held : HardLocked job endpoint j'.counts (j'.counts ++ [.copied copy]) guard
        { j' with term := guard.grant.term,
                  progress := { j'.progress with upperBound := guard.grant.lastLogTick } } h :=
      ⟨rfl, same ▸ locked⟩
    have released : guard.releaseQuietly.Uses Call.Silent := ⟨fun _ => rfl, fun _ => trivial⟩
    simp only [Stage.keeps_bind, Stage.keeps_modify, Stage.keeps_result, Stage.keeps_act]
    refine (finalizeAndRegister_keeps setting job endpoint held first rfl rfl).mono ?_ ?_
    · -- The answer to the cancellation is no milestone, so it cannot undo the registration.
      rintro _ j h ⟨request, registered⟩
      refine ((registered_stable setting job request).keeps released registered).mono ?_
      exact fun _ h registered => ⟨request, registered⟩
    · intro fault j h unregistered
      have stable := (ordinary_stable setting job).mono fun _ => Call.Silent.ordinary
      refine (stable.keeps (j := j) released unregistered).mono ?_
      exact fun _ h => concludeHardLock_error_keeps setting job endpoint
  · rintro fault j' h ⟨_, stayed⟩
    exact unregistered_of_marks stayed free

theorem work_keeps {h : History surroundings} (start : milestones h = []) :
    (work setting job).Keeps (RegistrationLaw setting job)
      (fun _ j h => ∃ request, Registered request j h) (fun _ _ => Unregistered) {} h := by
  rw [work_eq]
  refine (standBy_uneventful setting job).andThen ⟨rfl, start⟩ (by simp) fun _ j h marked => ?_
  rw [Stage.keeps_bind]
  refine (prepare_keeps setting job marked.2).mono ?_ fun _ _ _ => id
  intro endpoint j h counted
  rw [Stage.keeps_bind]
  refine (copyShard_keeps setting job endpoint counted).mono ?_ fun _ _ _ => id
  rintro _ j h ⟨copy, rfl, first, copied⟩
  have free : ∀ request, .registering request true ∉ j.counts ++ [.copied copy] := by simp
  refine (catchUpSoftly_uneventful setting job endpoint).andThen ⟨rfl, copied⟩ free
    fun _ j' h marked => ?_
  refine uneventful_unlessStopping.andThen marked free fun _ j' h marked => ?_
  exact catchUpHard_keeps setting job endpoint first (marked.1 ▸ marked.2)

/-- The report says what the run did up to the registration by this request: it counted on both
sides, copied the shard, got the hard lock, followed the log to the end and counted again. -/
def Truthful (report : Report) (request : AddFollowerRequest) (h : History surroundings) : Prop :=
  ∃ outcome lock grant,
    milestones h = [.leaderCounted (.ok report.initialLeaderCount),
      .counted (.ok report.initialFollowerCount), .copied outcome, .granted lock grant,
      .finalizing report.progress.lastLogTick report.progress.upperBound,
      .counted (.ok report.docCountAtEnd), .registering request true] ∧
    report.docCountAtEnd = request.checksum ∧
    report.term.value = grant.followingTermId.getD 0 ∧
    report.progress.upperBound = grant.lastLogTick

theorem Truthful.eq_of_registering {report : Report} {request other : AddFollowerRequest}
    {h : History surroundings} (truthful : Truthful report request h)
    (accepted : .registering other true ∈ milestones h) : other = request := by
  obtain ⟨outcome, lock, grant, reached, _⟩ := truthful
  simpa [reached] using accepted

/-- A complete attempt registered truthfully, and a failed one did not register. -/
def Outcome (report : Report) (h : History surroundings) : Prop :=
  if report.isComplete then ∃ request, Truthful report request h else Unregistered h

def Settlement (fault : Option Fault) (j : Journal) (h : History surroundings) : Prop :=
  if fault.isNone then ∃ request, Registered request j h else Unregistered h

theorem settlement_stable (fault : Option Fault) :
    Stage.Stable (RegistrationLaw setting job) Call.Silent (Settlement fault) where
  allowed := fun _ _ _ _ silent => law_of_ordinary silent.ordinary
  kept := by
    intro j h c r settled silent
    cases fault with
    | none =>
      obtain ⟨request, registered⟩ := settled
      exact ⟨request, (registered_stable setting job request).kept j h c r registered silent⟩
    | some fault =>
      exact (ordinary_stable setting job).kept j h c r settled silent.ordinary

theorem run_keeps_registrationLaw :
    (run setting job).Keeps (RegistrationLaw setting job) Outcome [] := by
  have closes (fault : Option Fault) := (settlement_stable setting job fault).mono
    fun _ (closes : Call.Closes job _) => closes.silent
  refine (keeps_run_of_stable setting job (law_of_ordinary rfl) closes fun began => ?_).mono ?_
  · exact work_keeps setting job (milestones_of_none (h := []) rfl rfl)
  · rintro _ h ⟨j, fault, ⟨elapsed, rfl⟩, settled⟩
    cases fault with
    | none =>
      obtain ⟨request, outcome, lock, grant, reached, checksum, term, bound⟩ := settled
      refine ⟨request, outcome, lock, grant, reached, checksum, ?_, bound⟩
      exact congrArg FollowingTerm.value term
    | some fault => exact settled

/-- An attempt registers at most once, and never without the credentials for what it asks. -/
theorem run_registers_with_credentials (es : History surroundings) :
    (∀ q, Steps (run setting job) es q →
      (es.filter fun e => Call.isRegistration e.call).length ≤ 1) ∧
    ∀ endpoint request limit next,
      Steps (run setting job) es (.call (.leader endpoint (.addFollower request) limit) next) →
        ∃ credentials : Credentials job endpoint es, request = credentials.request setting := by
  have law {es : History surroundings} {c : Call} {next : c.Reply → Act Report}
      (steps : Steps (run setting job) es (.call c next)) : RegistrationLaw setting job es c :=
    (run_keeps_registrationLaw setting job).allowed steps
  constructor
  · intro q steps
    refine steps.filter_length_le_one fun es c next earlier registers => ?_
    obtain ⟨endpoint, request, limit, rfl⟩ := exists_of_isRegistration registers
    exact (law earlier endpoint request limit rfl).1
  · intro endpoint request limit next steps
    exact (law steps endpoint request limit rfl).2

theorem calmRun_registers_with_credentials :
    ∃ (before : History surroundings) (endpoint : String) (request : AddFollowerRequest)
      (limit : Duration) (next : Except Fault Unit → Act Report),
      Steps (run calmSetting calmJob) before
        (.call (.leader endpoint (.addFollower request) limit) next) ∧
      (before.filter fun e => Call.isRegistration e.call).length ≤ 1 ∧
      ∃ credentials : Credentials calmJob endpoint before,
        request = credentials.request calmSetting := by
  have registered : ∃ e ∈ calmRun.1, Call.isRegistration e.call = true := by decide +kernel
  obtain ⟨⟨c, reply⟩, mem, registers⟩ := registered
  obtain ⟨endpoint, request, limit, rfl⟩ := exists_of_isRegistration registers
  obtain ⟨before, after, split⟩ := List.append_of_mem mem
  have runs := calmRun_runs
  rw [split] at runs
  obtain ⟨next, steps⟩ := Steps.before runs
  have law := run_registers_with_credentials calmSetting calmJob before
  exact ⟨before, endpoint, request, limit, next, steps, law.1 _ steps, law.2 _ _ _ _ steps⟩

/-- An attempt is complete if and only if its registration was accepted, and then its report is
true. -/
theorem run_isComplete_iff_registered {es : History surroundings} {report : Report}
    (runs : Runs (run setting job) es report) :
    (report.isComplete = true ↔ ∃ endpoint request limit,
      ⟨.leader endpoint (.addFollower request) limit, .ok ()⟩ ∈ es) ∧
    ∀ endpoint request limit, ⟨.leader endpoint (.addFollower request) limit, .ok ()⟩ ∈ es →
      Truthful report request es := by
  have outcome := (run_keeps_registrationLaw setting job).ended runs
  rw [List.nil_append] at outcome
  unfold Outcome at outcome
  have reached {endpoint : String} {request : AddFollowerRequest} {limit : Duration}
      (accepted : ⟨.leader endpoint (.addFollower request) limit, .ok ()⟩ ∈ es) :
      .registering request true ∈ milestones es := mem_milestones.mpr ⟨_, accepted, rfl⟩
  cases complete : report.isComplete with
  | false =>
    have unregistered : Unregistered es := by simpa [complete] using outcome
    simp only [Bool.false_eq_true, false_iff]
    refine ⟨?_, fun _ request _ accepted => absurd (reached accepted) (unregistered request)⟩
    rintro ⟨_, request, _, accepted⟩
    exact unregistered request (reached accepted)
  | true =>
    have truthful : ∃ request, Truthful report request es := by simpa [complete] using outcome
    obtain ⟨request, truth⟩ := truthful
    constructor
    · obtain ⟨_, _, _, path, _⟩ := truth
      have registered : .registering request true ∈ milestones es := by simp [path]
      obtain ⟨endpoint, limit, accepted⟩ := addFollower_of_registering registered
      exact ⟨fun _ => ⟨endpoint, request, limit, accepted⟩, fun _ => rfl⟩
    · intro _ other _ accepted
      rw [truth.eq_of_registering (reached accepted)]
      exact truth

theorem calmRun_isComplete_iff_registered :
    Runs (run calmSetting calmJob) calmRun.1 calmRun.2 ∧ calmRun.2.isComplete = true ∧
      ∃ endpoint request limit,
        ⟨.leader endpoint (.addFollower request) limit, .ok ()⟩ ∈ calmRun.1 ∧
          Truthful calmRun.2 request calmRun.1 := by
  have complete : calmRun.2.isComplete = true := by decide +kernel
  have law := run_isComplete_iff_registered calmSetting calmJob calmRun_runs
  obtain ⟨endpoint, request, limit, accepted⟩ := law.1.mp complete
  exact ⟨calmRun_runs, complete, endpoint, request, limit, accepted, law.2 _ _ _ accepted⟩

end

end FollowerSync.Attempt
