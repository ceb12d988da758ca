import FollowerSync.Proofs.Footprints

set_option autoImplicit false

namespace FollowerSync.Cluster

def Readiness.admits : Readiness → Bool
  | .proceed | .wait => true
  | .cancel _ => false

/-- The server is to follow itself, and the plan has it nowhere but in the first place. -/
def LedByItself (planned : List String) (leader server : String) : Prop :=
  server = leader ∧ server ∉ planned.tail

theorem planned_of_admits {planned current : List String} {leader server : String} {forced : Bool}
    (admits : (assess planned current leader server forced).admits = true) :
    server ∈ planned ∧ planned.head? = some leader := by
  unfold assess at admits
  split at admits
  · cases admits
  · rename_i listed
    simpa using listed

theorem isPlannedFollower_iff_of_admits {planned current : List String} {leader server : String}
    {forced : Bool} (admits : (assess planned current leader server forced).admits = true) :
    isPlannedFollower planned leader server = true ↔ ¬LedByItself planned leader server := by
  obtain ⟨listed, first⟩ := planned_of_admits admits
  obtain ⟨followers, rfl⟩ := List.head?_eq_some_iff.mp first
  rw [isPlannedFollower_iff, LedByItself, List.tail_cons]
  constructor
  · rintro ⟨_, ⟨rfl, rfl⟩, follows⟩ ⟨_, absent⟩
    exact absent follows
  · intro other
    refine ⟨followers, rfl, ?_⟩
    rcases List.mem_cons.mp listed with same | follows
    · by_contra absent
      exact other ⟨same, absent⟩
    · exact follows

end FollowerSync.Cluster

namespace FollowerSync.Attempt
open Cluster

section
variable (setting : Setting) (job : Job)

def Admitted (h : History surroundings) : Prop :=
  ∃ before planned current, h = before ++ [⟨.plannedServers job.place, .ok planned⟩,
      ⟨.currentServers job.place, .ok current⟩] ∧
    (assess planned current job.leader setting.server job.forcedResync).admits = true

/-- The attempt has just looked at the cluster, and on the plan that it saw its later looks let it
go on unless this server is led by itself. -/
def PlanAgrees (h : History surroundings) : Prop :=
  ∃ before planned current, h = before ++ [⟨.plannedServers job.place, .ok planned⟩,
      ⟨.currentServers job.place, .ok current⟩] ∧
    ((planCheck setting job).holds (.ok planned) = true ↔
      ¬LedByItself planned job.leader setting.server)

theorem Admitted.planAgrees {setting : Setting} {job : Job} {h : History surroundings}
    (admitted : Admitted setting job h) : PlanAgrees setting job h := by
  obtain ⟨before, planned, current, looked, admits⟩ := admitted
  exact ⟨before, planned, current, looked, isPlannedFollower_iff_of_admits admits⟩

def AdmissionLaw (h : History surroundings) : Call → Prop
  | .sleep _ | .lookupShard _ => Admitted setting job h
  | _ => True

theorem waitForLeader_admits (looks : Nat) (h : History surroundings) :
    (waitForLeader setting job looks).Keeps (AdmissionLaw setting job)
      (fun r h => r = .ok () → Admitted setting job h) h := by
  induction looks generalizing h with
  | zero =>
    refine ⟨trivial, ?_⟩
    rintro ⟨⟩
  | succ looks ih =>
    simp only [waitForLeader, ask_eq, Program.bind_eq, Program.bind_call, Program.bind_done,
      Program.keeps_call, Program.keeps_ite, Program.pure_eq]
    refine ⟨trivial, fun stopping => ⟨fun _ => ?_, fun _ => ?_⟩⟩
    · rintro ⟨⟩
    simp only [look, ask_eq, Program.bind_eq, Program.bind_call, Program.keeps_call]
    refine ⟨trivial, ?_⟩
    rintro (fault | planned)
    · rintro ⟨⟩
    refine ⟨trivial, ?_⟩
    rintro (fault | current)
    · rintro ⟨⟩
    have admitted := fun admits => (⟨h ++ [⟨.stopping, stopping⟩], planned, current, by simp,
      admits⟩ : Admitted setting job (h ++ [⟨.stopping, stopping⟩] ++
        [⟨.plannedServers job.place, .ok planned⟩] ++
        [⟨.currentServers job.place, .ok current⟩]))
    simp only [Program.bind_done, Program.pure_eq]
    cases assessed : assess planned current job.leader setting.server job.forcedResync with
    | proceed => exact fun _ => admitted (assessed ▸ rfl)
    | wait => exact ⟨admitted (assessed ▸ rfl), fun _ => ih _⟩
    | cancel reason => rintro ⟨⟩

/-- The same law without the sleeps, since an attempt also sleeps for other reasons. -/
def LookupLaw (h : History surroundings) : Call → Prop
  | .lookupShard _ => Admitted setting job h
  | _ => True

def Call.SeeksNoShard : Call → Prop
  | .lookupShard _ => False
  | _ => True

section
variable {setting job} {h : History surroundings}

theorem lookupLaw_of_seeksNoShard {c : Call} (seeksNone : c.SeeksNoShard) :
    LookupLaw setting job h c := by
  cases c with
  | lookupShard key => exact seeksNone.elim
  | _ => trivial

theorem AdmissionLaw.lookupLaw {c : Call} (law : AdmissionLaw setting job h c) :
    LookupLaw setting job h c := by
  cases c with
  | lookupShard key => exact law
  | _ => trivial

theorem seeksNoShard_keeps {α : Type} {p : Act α} (u : p.Uses Call.SeeksNoShard) :
    p.Keeps (LookupLaw setting job) (fun _ _ => True) h :=
  u.keeps (fun _ _ _ => lookupLaw_of_seeksNoShard) (fun _ _ _ _ _ => trivial) trivial

theorem Stage.Uses.keepsLookupLaw {α : Type} {s : Stage α} (u : s.Uses Call.SeeksNoShard)
    (j : Journal) :
    s.Keeps (LookupLaw setting job) (fun _ _ _ => True) (fun _ _ _ => True) j h :=
  (seeksNoShard_keeps (u j)).mono fun r _ _ => by rcases r with ⟨_ | _, _⟩ <;> trivial

end

theorem standBy_admits (j : Journal) (h : History surroundings) :
    (standBy setting job).Keeps (LookupLaw setting job) (fun _ _ => Admitted setting job)
      (fun _ _ _ => True) j h := by
  have delays : (delayAfterFailures setting job).Uses Call.SeeksNoShard :=
    (delayAfterFailures_uses setting job).mono fun c waits => by cases c <;> trivial
  simp only [standBy, Stage.keeps_bind, Stage.keeps_enter, Stage.keeps_attempt]
  cases job.validate with
  | error fault => trivial
  | ok _ =>
    refine (seeksNoShard_keeps delays).mono ?_
    rintro (fault | _) h -
    · trivial
    · refine ((waitForLeader_admits setting job _ h).weaken fun _ _ => AdmissionLaw.lookupLaw).mono ?_
      rintro (fault | _) h admitted
      · trivial
      · exact admitted rfl

theorem afterLookup_seeksNoShard : Stage.Uses Call.SeeksNoShard (do
    let endpoint ← Stage.attempt (ask (.serverEndpoint job.leader))
    readInitialCounts setting job endpoint
    checkRequeue setting job
    startAttemptClock setting job
    Stage.act (ask (.openTailingSyncer job.database endpoint job.leader))
    Stage.unlessStopping
    return endpoint) := by
  have looks (c : Call) (looks : c.Looks) : c.SeeksNoShard := by cases c <;> trivial
  refine .bind (Stage.uses_attempt ⟨trivial, fun _ => trivial⟩) fun endpoint => ?_
  exact .bind (readInitialCounts_uses setting job endpoint trivial trivial) fun _ =>
    .bind (checkRequeue_uses setting job trivial) fun _ =>
    .bind ((startAttemptClock_uses setting job).mono looks) fun _ =>
    .bind (Stage.uses_act ⟨trivial, fun _ => trivial⟩) fun _ =>
    .bind (unlessStopping_uses.mono looks) fun _ => Stage.uses_pure endpoint

theorem lookupShard_keeps {j : Journal} {h : History surroundings}
    (admitted : Admitted setting job h) :
    (lookupShard job).Keeps (LookupLaw setting job) (fun _ _ _ => True) (fun _ _ _ => True) j h := by
  unfold lookupShard
  rw [Stage.keeps_bind, Stage.keeps_attempt, ask_eq, Program.keeps_call]
  refine ⟨admitted, ?_⟩
  rintro (fault | found)
  · trivial
  · cases found <;> trivial

theorem prepare_keepsLookupLaw {j : Journal} {h : History surroundings}
    (admitted : Admitted setting job h) :
    (prepare setting job).Keeps (LookupLaw setting job) (fun _ _ _ => True) (fun _ _ _ => True)
      j h := by
  unfold prepare
  rw [Stage.keeps_bind, Stage.keeps_enter, Stage.keeps_bind]
  exact (lookupShard_keeps setting job admitted).mono
    (fun _ j _ _ => (afterLookup_seeksNoShard setting job).keepsLookupLaw j) fun _ _ _ => id

theorem synchronization_seeksNoShard (endpoint : String) : Stage.Uses Call.SeeksNoShard (do
    let syncerId ← copyShard setting job endpoint
    catchUpSoftly setting job endpoint
    Stage.unlessStopping
    catchUpHard setting job endpoint syncerId) := by
  have follows (c : Call) (follows : c.Follows) : c.SeeksNoShard := by cases c <;> trivial
  have copies (c : Call) (copies : c.Copies) : c.SeeksNoShard := by cases c <;> trivial
  have registers (c : Call) (registers : c.Registers) : c.SeeksNoShard := by cases c <;> trivial
  have repairs (c : Call) (repairs : c.Repairs) : c.SeeksNoShard := by cases c <;> trivial
  exact .bind ((copyShard_uses setting job endpoint).mono copies) fun syncerId =>
    .bind ((catchUpSoftly_uses setting job endpoint).mono follows) fun _ =>
    .bind (unlessStopping_uses.mono fun _ looks => follows _ looks.follows) fun _ =>
    catchUpHard_uses setting job endpoint syncerId follows registers repairs

theorem run_keeps_lookupLaw :
    (run setting job).Keeps (LookupLaw setting job) (fun _ _ => True) [] := by
  have closes (fault : Option Fault) : (close setting job fault).Uses Call.SeeksNoShard :=
    (close_uses setting job fault).mono fun c closes => by cases c <;> trivial
  have concludes {began : Instant} {fault : Option Fault} {j : Journal} {h : History surroundings} :
      Concludes (LookupLaw setting job) (fun _ _ => True) setting job began fault j h :=
    (seeksNoShard_keeps (closes fault)).mono fun _ _ _ => ⟨trivial, fun _ => trivial⟩
  rw [keeps_run, work_eq]
  refine ⟨trivial, fun began => ?_⟩
  rw [Stage.keeps_bind]
  refine (standBy_admits setting job {} _).mono ?_ fun _ _ _ _ => concludes
  intro _ j h admitted
  rw [Stage.keeps_bind]
  refine (prepare_keepsLookupLaw setting job admitted).mono ?_ fun _ _ _ _ => concludes
  intro endpoint j h _
  exact ((synchronization_seeksNoShard setting job endpoint).keepsLookupLaw j).mono
    (fun _ _ _ _ => concludes) fun _ _ _ _ => concludes

/-- On every plan that lets a server go on, the later looks have it follow unless it is led by
itself. So on the plan of its last look neither does an attempt wait for a leader, nor does it look
the shard up, that they would not have it follow, unless it is led by itself. -/
theorem run_admits_followers :
    (∀ planned current leader server forced,
      (assess planned current leader server forced).admits = true →
      (isPlannedFollower planned leader server = true ↔ ¬LedByItself planned leader server)) ∧
    (∀ looks es d next, Steps (waitForLeader setting job looks) es (.call (.sleep d) next) →
      PlanAgrees setting job es) ∧
    ∀ es key next, Steps (run setting job) es (.call (.lookupShard key) next) →
      PlanAgrees setting job es := by
  refine ⟨fun _ _ _ _ _ => isPlannedFollower_iff_of_admits, ?_, ?_⟩
  · intro looks es d next steps
    exact ((waitForLeader_admits setting job looks []).allowed steps).planAgrees
  · intro es key next steps
    exact ((run_keeps_lookupLaw setting job).allowed steps).planAgrees

end

theorem calmJob_admits_follower :
    let looked (current : List String) : History surroundings := [⟨.stopping, false⟩,
      ⟨.plannedServers calmJob.place, .ok ["L", "F"]⟩, ⟨.currentServers calmJob.place, .ok current⟩]
    let begun : History surroundings := [⟨.now, (0 : Nat)⟩, ⟨.upkeep (.failures calmJob.key), (0 : Nat)⟩]
    ((assess ["L", "F"] [] "L" "F" false).admits = true ∧
      isPlannedFollower ["L", "F"] "L" "F" = true) ∧
    (∃ d next, Steps (waitForLeader calmSetting calmJob 1) (looked []) (.call (.sleep d) next) ∧
      PlanAgrees calmSetting calmJob (looked [])) ∧
    ∃ key next, Steps (run calmSetting calmJob) (begun ++ looked ["L"])
        (.call (.lookupShard key) next) ∧
      PlanAgrees calmSetting calmJob (begun ++ looked ["L"]) := by
  intro looked begun
  have law := run_admits_followers calmSetting calmJob
  have admits : (assess ["L", "F"] [] "L" "F" false).admits = true := rfl
  have apart : ¬LedByItself ["L", "F"] "L" "F" := fun led => absurd led.1 (by decide)
  have waits : Steps (waitForLeader calmSetting calmJob 1) (looked [])
      (.call (.sleep (.ofSecs 1)) _) := .call (.call (.call (.refl _)))
  have seeks : Steps (run calmSetting calmJob) (begun ++ looked ["L"])
      (.call (.lookupShard calmJob.key) _) :=
    .call (.call (.call (.call (.call (.refl _)))))
  exact ⟨⟨admits, (law.1 _ _ _ _ _ admits).mpr apart⟩, ⟨_, _, waits, law.2.1 _ _ _ _ waits⟩,
    _, _, seeks, law.2.2 _ _ _ seeks⟩

/-- A server that leads by plan and is told to follow itself may wait and even begin, but its later
looks would not have it follow. -/
theorem selfLed_admitted :
    assess ["F"] [] "F" "F" false = .wait ∧ assess ["F"] ["F"] "F" "F" true = .proceed ∧
      isPlannedFollower ["F"] "F" "F" = false := by
  decide

end FollowerSync.Attempt
