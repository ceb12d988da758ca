import Mathlib.Data.List.Basic
import FollowerSync.Proofs.Footprints

/-!
# How far a client id tells jobs apart

The client id of a job is its database, plan, shard and leader in one text, without anything between
them. Two jobs with different parts have different ids as long as at most one part differs in
length; beyond that the end of one part can be the beginning of the next, and only the shortest ids
belong to one job. In an attempt no request names another client than its own job's.
-/

set_option autoImplicit false

namespace FollowerSync.Job

def parts (job : Job) : List String := [job.database, job.planId, job.shard, job.leader]

/-- How many parts of two jobs differ in length. -/
def shifts (j k : Job) : Nat :=
  (j.parts.zip k.parts).countP fun (p, q) => decide (p.length ≠ q.length)

section
variable {j k : Job}

theorem clientId_toList (job : Job) :
    job.clientId.toList = (job.parts.map String.toList).flatten := by
  simp [clientId, parts]

theorem clientId_eq_of_parts (same : j.parts = k.parts) : j.clientId = k.clientId := by
  simp_all [parts, clientId]

theorem parts_eq_of_lengths (lengths : j.parts.map String.length = k.parts.map String.length)
    (same : j.clientId = k.clientId) : j.parts = k.parts := by
  have texts : j.parts.map String.toList = k.parts.map String.toList := by
    rw [List.eq_iff_flatten_eq]
    constructor
    · rw [← clientId_toList, ← clientId_toList, same]
    · simp only [List.map_map, Function.comp_def, String.length_toList]
      exact lengths
  exact List.map_injective_iff.mpr (fun _ _ => String.toList_injective) texts

/-- The lengths have the same sum, so that one of them alone cannot differ. -/
theorem lengths_eq_of_shifts (few : j.shifts k ≤ 1) (same : j.clientId = k.clientId) :
    j.parts.map String.length = k.parts.map String.length := by
  have sums := congrArg String.length same
  simp only [clientId, String.length_append] at sums
  simp only [shifts, parts, List.zip_cons_cons, List.zip_nil_right, List.countP_cons,
    List.countP_nil, decide_eq_true_eq] at few
  simp only [parts, List.map_cons, List.map_nil, List.cons.injEq, and_true]
  split_ifs at few <;> omega

theorem clientId_eq_iff (few : j.shifts k ≤ 1) : j.clientId = k.clientId ↔ j.parts = k.parts :=
  ⟨fun same => parts_eq_of_lengths (lengths_eq_of_shifts few same) same, clientId_eq_of_parts⟩

/-!
## Jobs that share an id
-/

theorem validate_iff_length_pos :
    j.validate = .ok () ↔ ∀ n ∈ j.parts.map String.length, 0 < n := by
  rw [validate_eq_ok_iff]
  simp [parts, Nat.pos_iff_ne_zero, and_left_comm]

/-- The job with the parts into which an id falls when it is cut behind so many characters, behind
so many more, and once more. -/
def cutAt (job : Job) (id : List Char) (a b c : Nat) : Job :=
  { job with
    database := .ofList (id.take a)
    planId := .ofList ((id.drop a).take b)
    shard := .ofList ((id.drop (a + b)).take c)
    leader := .ofList (id.drop (a + b + c)) }

variable {id : List Char} {a b c : Nat}

theorem cutAt_clientId (job : Job) (id : List Char) (a b c : Nat) :
    (job.cutAt id a b c).clientId = .ofList id := by
  apply String.toList_injective
  have third := List.take_append_drop c (id.drop (a + b))
  have second := List.take_append_drop b (id.drop a)
  rw [List.drop_drop] at second third
  simp only [clientId, cutAt, String.toList_append, String.toList_ofList, List.append_assoc]
  rw [third, second, List.take_append_drop]

theorem cutAt_lengths (job : Job) (fits : a + b + c ≤ id.length) :
    (job.cutAt id a b c).parts.map String.length = [a, b, c, id.length - (a + b + c)] := by
  simp only [parts, cutAt, List.map_cons, List.map_nil, String.length_ofList, List.length_take,
    List.length_drop, List.cons.injEq, and_true]
  omega

theorem cutAt_valid (job : Job) (first : 0 < a) (second : 0 < b) (third : 0 < c)
    (fits : a + b + c < id.length) : (job.cutAt id a b c).validate = .ok () := by
  rw [validate_iff_length_pos, cutAt_lengths job (Nat.le_of_lt fits)]
  simp only [List.forall_mem_cons]
  exact ⟨first, second, third, Nat.sub_pos_of_lt fits, List.forall_mem_nil _⟩

theorem exists_clientId_eq_iff (valid : j.validate = .ok ()) :
    (∃ k : Job, k.validate = .ok () ∧ k.clientId = j.clientId ∧ k.parts ≠ j.parts) ↔
      4 < j.clientId.length := by
  constructor
  · rintro ⟨k, valid', same, other⟩
    by_contra short
    refine other (parts_eq_of_lengths ?_ same)
    have sums := congrArg String.length same
    rw [validate_iff_length_pos] at valid valid'
    simp only [parts, List.map_cons, List.forall_mem_cons] at valid valid'
    simp only [clientId, String.length_append] at sums short
    simp only [parts, List.map_cons, List.map_nil, List.cons.injEq, and_true]
    omega
  · intro long
    rw [← String.length_toList] at long
    -- two ways to cut the id, and the job itself is at most one of them
    have cut (a : Nat) (one : 0 < a) (fits : a + 1 + 1 < j.clientId.toList.length)
        (other : (j.cutAt j.clientId.toList a 1 1).parts ≠ j.parts) :
        ∃ k : Job, k.validate = .ok () ∧ k.clientId = j.clientId ∧ k.parts ≠ j.parts :=
      ⟨_, cutAt_valid j one Nat.one_pos Nat.one_pos fits,
        (cutAt_clientId ..).trans (String.ofList_toList ..), other⟩
    by_cases same : (j.cutAt j.clientId.toList 1 1 1).parts = j.parts
    · refine cut 2 (by decide) (by omega) fun same' => ?_
      have lengths := congrArg (List.map String.length) (same.trans same'.symm)
      rw [cutAt_lengths j (by omega), cutAt_lengths j (by omega)] at lengths
      simp at lengths
    · exact cut 1 (by decide) (by omega) same

end

end FollowerSync.Job

namespace FollowerSync.Leader

def Request.clientId? : Request → Option String
  | .acquireLock request => some request.clientId
  | .cancelLock _ _ clientId => some clientId
  | .addFollower request => some request.clientId
  | _ => none

end FollowerSync.Leader

namespace FollowerSync.Attempt
open Leader

/-!
## In whose name an attempt asks
-/

def Call.Signs (job : Job) : Call → Prop
  | .leader _ request _ => ∀ id ∈ request.clientId?, id = job.clientId
  | _ => True

section
variable {job : Job} {c : Call}

theorem Call.Looks.signs (looks : c.Looks) : c.Signs job := by
  cases c with
  | leader => exact looks.elim
  | _ => trivial

theorem Call.signs_of_nobody {endpoint : String} {request : Request} {limit : Duration}
    (nobody : request.clientId? = none) : (Call.leader endpoint request limit).Signs job := by
  intro id named
  rw [nobody] at named
  cases named

theorem Call.Prepares.signs (prepares : c.Prepares job) : c.Signs job := by
  cases c with
  | leader endpoint request limit =>
    cases request with
    | collectionCount => exact Call.signs_of_nobody rfl
    | _ => exact prepares.elim
  | _ => trivial

theorem Call.Copies.signs (copies : c.Copies) : c.Signs job := by
  cases c with
  | leader => exact copies.elim
  | _ => trivial

theorem Call.Bides.signs (bides : c.Bides job) : c.Signs job := by
  cases c with
  | leader => exact bides.elim
  | _ => trivial

theorem Call.Repairs.signs (repairs : c.Repairs) : c.Signs job := by
  cases c with
  | leader endpoint request limit =>
    cases request with
    | recalculateCount => exact Call.signs_of_nobody rfl
    | _ => exact repairs.elim
  | _ => trivial

theorem Call.Closes.signs (closes : c.Closes job) : c.Signs job := by
  cases c with
  | leader => exact closes.elim
  | _ => trivial

def Signing {α : Type} (job : Job) (s : Stage α) : Prop :=
  s.Preserves (fun _ => Call.Signs job) fun _ _ => True

theorem signs_stable :
    Stage.Stable (fun _ => Call.Signs job) (Call.Signs job) fun _ _ => True where
  allowed := fun _ _ _ _ names => names
  kept := fun _ _ _ _ _ _ => trivial

theorem signing_of_uses {α : Type} {s : Stage α} (u : s.Uses (Call.Signs job)) : Signing job s :=
  u.preserves (I := fun _ => True) signs_stable

end

section
variable (setting : Setting) (job : Job) (endpoint : String)

theorem acquireLock_signs (mode : LockMode) (ttl : Duration) (j : Journal)
    (h : History surroundings) :
    (acquireLock setting job endpoint mode ttl).Keeps (fun _ => Call.Signs job)
      (fun guard _ _ => guard.clientId = job.clientId) (fun _ _ _ => True) j h := by
  refine keeps_classified setting job (signs_stable.mono fun _ looks => looks.signs) ?_
  rw [keeps_acquire]
  refine ⟨Call.signs_of_nobody rfl, fun _ => trivial, fun lockId => ⟨?acquires, fun grant => rfl,
    fun fault => ⟨fun _ => trivial, fun _ => ⟨?cancels, fun _ => trivial⟩⟩⟩⟩
  case acquires =>
    rintro id ⟨⟩
    rfl
  case cancels =>
    rintro id ⟨⟩
    rfl

theorem cancelling_signs {guard : Guard} (named : guard.clientId = job.clientId) :
    guard.cancelling.Signs job := by
  rintro id ⟨⟩
  exact named

theorem followHeld_signs {guard : Guard} (named : guard.clientId = job.clientId)
    (budget : Duration) : Signing job (followHeld setting job budget guard) := by
  intro j h _
  have classifies (fault : Fault) :=
    signing_of_uses ((classify_uses setting job fault).mono fun c (looks : c.Looks) =>
      (looks.signs : c.Signs job))
  rw [keeps_followHeld]
  exact ⟨trivial, fun fault => ⟨cancelling_signs job named, fun _ => classifies fault _ _ trivial⟩,
    fun _ => ⟨cancelling_signs job named, fun _ => ⟨fun _ => trivial, fun _ _ => trivial⟩⟩⟩

theorem softRound_signs (budget : Duration) :
    Signing job (softRound setting job endpoint budget) := by
  have goesOn := signing_of_uses (unlessStopping_uses.mono fun c (looks : c.Looks) =>
    (looks.signs : c.Signs job))
  rw [softRound_eq]
  refine Stage.Preserves.bind goesOn fun _ j h _ => ?_
  rw [Stage.keeps_bind]
  exact (acquireLock_signs setting job endpoint .soft _ j h).mono
    (fun _ j h named => followHeld_signs setting job named budget j h trivial) fun _ _ _ => id

theorem finalizeAndRegister_signs (syncerId lockId : UInt64) :
    (finalizeAndRegister setting job endpoint syncerId lockId).Uses (Call.Signs job) := by
  refine .bind ?adopted fun _ => .bind ?finalized fun _ => .bind (Stage.uses_enter _) fun _ =>
    .bind ?counted fun checksum => .bind (Stage.uses_modify _) fun _ => ?registered
  case adopted =>
    refine .bind Stage.uses_get fun j => .bind ?_ fun _ => ?_
    · exact Stage.uses_attempt ⟨trivial, fun _ => trivial⟩
    · exact Stage.uses_act ⟨trivial, fun _ => trivial⟩
  case finalized =>
    refine .bind Stage.uses_get fun j => ?_
    exact classified_uses setting job ⟨trivial, fun _ => trivial⟩ fun c looks => looks.signs
  case counted => exact Stage.uses_attempt ⟨trivial, fun _ => trivial⟩
  case registered =>
    refine Stage.uses_attempt ⟨?_, fun _ => trivial⟩
    rintro id ⟨⟩
    rfl

theorem registerHeld_signs {guard : Guard} (named : guard.clientId = job.clientId)
    (syncerId : UInt64) : (registerHeld setting job endpoint syncerId guard).Uses
      (Call.Signs job) := by
  refine .bind (Stage.uses_modify _) fun _ => .bind (Stage.uses_result ?registered) fun result =>
    .bind (Stage.uses_act ⟨cancelling_signs job named, fun _ => trivial⟩) fun _ => ?concluded
  case registered => exact finalizeAndRegister_signs setting job endpoint _ _
  case concluded =>
    exact (concludeHardLock_uses setting job endpoint result).mono fun _ repairs => repairs.signs

theorem catchUpHard_signs (syncerId : UInt64) :
    Signing job (catchUpHard setting job endpoint syncerId) := by
  rw [catchUpHard_eq]
  refine Stage.Preserves.bind (signing_of_uses (Stage.uses_enter _)) fun _ j h _ => ?_
  rw [Stage.keeps_bind]
  refine (acquireLock_signs setting job endpoint .hard _ j h).mono (fun guard j h named => ?_)
    fun _ _ _ => id
  exact signing_of_uses (registerHeld_signs setting job endpoint named syncerId) j h trivial

theorem work_signs : Signing job (work setting job) := by
  rw [work_eq]
  refine Stage.Preserves.bind ?stoodBy fun _ => Stage.Preserves.bind ?prepared fun endpoint =>
    Stage.Preserves.bind ?copied fun syncerId => Stage.Preserves.bind ?followed fun _ =>
    Stage.Preserves.bind ?goesOn fun _ => catchUpHard_signs setting job endpoint syncerId
  case stoodBy =>
    exact signing_of_uses ((standBy_bides setting job).mono fun _ bides => bides.signs)
  case prepared =>
    exact signing_of_uses ((prepare_uses setting job).mono fun _ prepares => prepares.signs)
  case copied =>
    exact signing_of_uses ((copyShard_uses setting job endpoint).mono fun _ copies => copies.signs)
  case followed =>
    exact catchUpSoftly_leads setting job endpoint (fun _ _ => id) (fun _ _ _ => trivial)
      (softRound_signs setting job endpoint)
  case goesOn => exact signing_of_uses (unlessStopping_uses.mono fun _ looks => looks.signs)

theorem run_signs : (run setting job).Keeps (fun _ => Call.Signs job) (fun _ _ => True) [] := by
  refine (keeps_run_of_stable setting job (I := fun _ _ _ => True) trivial
    (fun _ => signs_stable.mono fun _ closes => closes.signs) fun began => ?_).mono
    fun _ _ _ => trivial
  exact work_signs setting job {} _ trivial

end

/-- An attempt comes to ask a leader something in this client's name. -/
def AsksAs (setting : Setting) (job : Job) (id : String) : Prop :=
  ∃ es endpoint request limit next,
    Steps (run setting job) es (.call (.leader endpoint request limit) next) ∧
      request.clientId? = some id

theorem asksAs_clientId {setting : Setting} {job : Job} {id : String}
    (asks : AsksAs setting job id) : id = job.clientId := by
  obtain ⟨es, endpoint, request, limit, next, steps, named⟩ := asks
  exact (run_signs setting job).allowed steps id named

def asksUnder (id : String) (e : Event surroundings) : Bool :=
  match e.call with
  | .leader _ request _ => request.clientId? = some id
  | _ => false

theorem asksAs_of_follow {setting : Setting} {job : Job} {id : String}
    (answer : (c : Call) → Option c.Reply)
    (found : ((run setting job).follow answer).any fun r => r.1.any (asksUnder id)) :
    AsksAs setting job id := by
  cases followed : (run setting job).follow answer with
  | none => simp [followed] at found
  | some r =>
    rw [followed, Option.any_some] at found
    obtain ⟨⟨c, reply⟩, mem, asks⟩ := List.any_eq_true.mp found
    obtain ⟨before, later, split⟩ := List.append_of_mem mem
    have runs := Program.runs_of_follow followed
    rw [split] at runs
    obtain ⟨next, steps⟩ := runs.before
    cases c with
    | leader endpoint request limit => exact ⟨_, _, _, _, _, steps, of_decide_eq_true asks⟩
    | _ => cases asks

/-- Jobs of which at most one part differs in length share an id only if they have all parts in
common. Every id of more than four characters belongs to several jobs. An attempt asks in no other
name than its job's, so that jobs of the first kind never ask in one another's. -/
theorem client_ids_apart_up_to_one_shift (j : Job) (valid : j.validate = .ok ()) :
    (∀ k : Job, j.shifts k ≤ 1 → (j.clientId = k.clientId ↔ j.parts = k.parts)) ∧
    ((∃ k : Job, k.validate = .ok () ∧ k.clientId = j.clientId ∧ k.parts ≠ j.parts) ↔
      4 < j.clientId.length) ∧
    (∀ setting id, AsksAs setting j id → id = j.clientId) ∧
    ∀ k : Job, j.shifts k ≤ 1 → j.parts ≠ k.parts → ∀ setting setting' id,
      AsksAs setting j id → ¬AsksAs setting' k id := by
  refine ⟨fun k few => Job.clientId_eq_iff few, Job.exists_clientId_eq_iff valid,
    fun _ _ asks => asksAs_clientId asks, fun k few other setting setting' id asks asks' => ?_⟩
  have same : j.clientId = k.clientId := (asksAs_clientId asks).symm.trans (asksAs_clientId asks')
  exact other ((Job.clientId_eq_iff few).mp same)

theorem calmJob_apart_from_next_shard :
    calmJob.validate = .ok () ∧ AsksAs calmSetting calmJob "db9s1L" ∧
      ¬AsksAs calmSetting { calmJob with shard := "s2" } "db9s1L" ∧
      ∃ k : Job, k.validate = .ok () ∧ k.clientId = "db9s1L" ∧ k.parts ≠ calmJob.parts := by
  have valid : calmJob.validate = .ok () := rfl
  obtain ⟨-, shared, -, apart⟩ := client_ids_apart_up_to_one_shift calmJob valid
  have asks : AsksAs calmSetting calmJob "db9s1L" :=
    asksAs_of_follow calm (by decide +kernel)
  exact ⟨valid, asks, apart _ (by decide) (by decide) _ _ _ asks, shared.mpr (by decide)⟩

def calmUnder (leader : String) : (c : Call) → Option c.Reply
  | .plannedServers _ => some (.ok [leader, "F"])
  | .currentServers _ => some (.ok [leader])
  | c => calm c

/-- Between database and plan the boundary can lie in two places. -/
theorem db12s1L_shared :
    let j : Job := { database := "db", planId := "12", shard := "s1", leader := "PRMR-L" }
    let k : Job := { database := "db1", planId := "2", shard := "s1", leader := "PRMR-L" }
    j.validate = .ok () ∧ k.validate = .ok () ∧ j.parts ≠ k.parts ∧ j.clientId = k.clientId ∧
      AsksAs calmSetting j "db12s1PRMR-L" ∧ AsksAs calmSetting k "db12s1PRMR-L" := by
  intro j k
  have asks : AsksAs calmSetting j "db12s1PRMR-L" :=
    asksAs_of_follow (calmUnder "PRMR-L") (by decide +kernel)
  have asks' : AsksAs calmSetting k "db12s1PRMR-L" :=
    asksAs_of_follow (calmUnder "PRMR-L") (by decide +kernel)
  exact ⟨rfl, rfl, by decide, by decide +kernel, asks, asks'⟩

end FollowerSync.Attempt
