import FollowerSync.Proofs.Locks
import FollowerSync.Proofs.Mismatches

/-!
# The order of a repair

A repair begins when the hard lock is gone. The documents are counted, then counted anew, and where
both counts agree the leader is asked to count anew as well. The attempt ends with a mismatch of the
counts unless one of the counts here fails.
-/

set_option autoImplicit false

namespace FollowerSync.Attempt
open Leader

abbrev Call.flagging : Call := .upkeep .countWrongChecksum

def Flagged (h : History surroundings) : Prop := ⟨.flagging, ()⟩ ∈ h

inductive FailsToRegister (endpoint : String) (own : Fault) : Event surroundings → Prop
  | uncounted : FailsToRegister endpoint own ⟨.documentCount, .error own⟩
  | refused (request : AddFollowerRequest) (limit : Duration) :
      FailsToRegister endpoint own ⟨.leader endpoint (.addFollower request) limit, .error own⟩

/-- A hard lock was granted, the server failed to register with this fault, and then the lock was
cancelled, which was the last call. -/
inductive HardLockCancelled (endpoint : String) (own : Fault) : History surroundings → Prop
  | intro {early : History surroundings} {lock : LockRequest} {limit cancelLimit : Duration}
      {grant : LockGrant} {failed : Event surroundings} (answer : Except Fault Unit)
      (hard : lock.mode = .hard)
      (granted : ⟨.leader endpoint (.acquireLock lock) limit, .ok grant⟩ ∈ early)
      (fails : FailsToRegister endpoint own failed) :
      HardLockCancelled endpoint own (early ++ [failed,
        ⟨.leader endpoint (.cancelLock lock.database lock.lockId lock.clientId) cancelLimit,
          answer⟩])

/-- How things stand when a repair is entered because of this fault. -/
structure Entered (endpoint : String) (own : Fault) (h : History surroundings) : Prop where
  wrong : own.code = .wrongChecksum
  cancelled : HardLockCancelled endpoint own h
  unheld : heldLocks h = []
  first : ¬Flagged h

inductive Wraps : Fault → Fault → Prop
  | kept (reason : String) : Wraps (.checksumMismatch reason) (.checksumMismatch reason)
  | wrapped {own : Fault} (other : ¬Mismatching own) : Wraps own (.checksumMismatch own.message)

section
variable (setting : Setting) (job : Job)

abbrev recalculating (endpoint : String) : Call :=
  .leader endpoint (.recalculateCount job.database job.shard) setting.settings.leaderRecountTimeout

/-- The calls of a repair after it was entered, and the fault that the attempt ends with. -/
inductive RepairCourse (endpoint : String) (own : Fault) : History surroundings → Fault → Prop
  | uncounted (fault : Fault) : RepairCourse endpoint own [⟨.documentCount, .error fault⟩] fault
  | unrecounted (old : UInt64) (fault : Fault) :
      RepairCourse endpoint own [⟨.documentCount, .ok old⟩, ⟨.recountDocuments, .error fault⟩] fault
  | changed {old new : UInt64} {last : Fault} (changes : old ≠ new) (wraps : Wraps own last) :
      RepairCourse endpoint own [⟨.documentCount, .ok old⟩, ⟨.recountDocuments, .ok new⟩] last
  | unchanged (count : UInt64) {last : Fault} (answer : Except Fault UInt64)
      (wraps : Wraps own last) :
      RepairCourse endpoint own [⟨.documentCount, .ok count⟩, ⟨.recountDocuments, .ok count⟩,
        ⟨recalculating setting job endpoint, answer⟩] last

/-- The next call of a repair, by what was called in it before. -/
inductive RepairStep (endpoint : String) : History surroundings → Call → Prop
  | counts : RepairStep endpoint [] .documentCount
  | recounts (old : UInt64) : RepairStep endpoint [⟨.documentCount, .ok old⟩] .recountDocuments
  | recalculates (count : UInt64) :
      RepairStep endpoint [⟨.documentCount, .ok count⟩, ⟨.recountDocuments, .ok count⟩]
        (recalculating setting job endpoint)

/-- A repair was entered, so far this was called in it, and no lock is held. -/
def InRepair (endpoint : String) (own : Fault) (sofar h : History surroundings) : Prop :=
  ∃ before, h = before ++ ⟨.flagging, ()⟩ :: sofar ∧ Entered endpoint own before ∧ heldLocks h = []

def Repaired (last : Fault) (h : History surroundings) : Prop :=
  ∃ endpoint own repair closing, InRepair endpoint own (repair ++ closing) h ∧
    RepairCourse setting job endpoint own repair last ∧ ∀ e ∈ closing, Call.Closes job e.call

/-- A repair is entered in good order, and then its calls come in theirs. -/
structure RepairOrder (h : History surroundings) (c : Call) : Prop where
  entered : c = .flagging → ∃ endpoint own, Entered endpoint own h
  inOrder : Flagged h →
    (∃ endpoint own sofar, InRepair endpoint own sofar h ∧
        RepairStep setting job endpoint sofar c) ∨
      ((∃ last, Repaired setting job last h) ∧ c.Closes job)
end

section
variable {setting : Setting} {job : Job} {endpoint : String} {own last : Fault}
  {h sofar : History surroundings} {c : Call}

theorem mem_findings_flagged : .flagged ∈ findings h ↔ Flagged h := by
  constructor
  · intro mem
    obtain ⟨e, mem, found⟩ := mem_marks.mp mem
    unfold finding at found
    split at found <;> simp_all [Flagged]
  · exact fun flagged => mem_marks.mpr ⟨_, flagged, rfl⟩

theorem not_flagging_of_isRepair (other : c.isRepair = false) : c ≠ .flagging := by
  rintro rfl
  cases other

theorem RepairOrder.of_other (other : c.isRepair = false) (first : ¬Flagged h) :
    RepairOrder setting job h c where
  entered := fun flags => absurd flags (not_flagging_of_isRepair other)
  inOrder := fun flagged => absurd flagged first

theorem not_flagged_append {r : c.Reply} (first : ¬Flagged h) (other : c.isRepair = false) :
    ¬Flagged (h ++ [(⟨c, r⟩ : Event surroundings)]) := by
  intro flagged
  rcases List.mem_append.mp flagged with earlier | last
  · exact first earlier
  · have same := congrArg Event.call (List.mem_singleton.mp last)
    exact not_flagging_of_isRepair other same.symm

/-- No repair was entered, and these locks are held. -/
structure Sound (held : List LockName) (h : History surroundings) : Prop where
  first : ¬Flagged h
  held_eq : heldLocks h = held

def Call.Sounds (c : Call) : Prop := c.isRepair = false ∧ c.LockFree

theorem Sound.append {held : List LockName} {r : c.Reply} (sound : Sound held h)
    (sounds : c.Sounds) : Sound held (h ++ [(⟨c, r⟩ : Event surroundings)]) where
  first := not_flagged_append sound.first sounds.1
  held_eq := heldLocks_lockFree sound.held_eq sounds.2

theorem sound_stable (setting : Setting) (job : Job) (held : List LockName) :
    Stage.Stable (RepairOrder setting job) Call.Sounds fun _ => Sound held where
  allowed := fun _ _ _ sound sounds => .of_other sounds.1 sound.first
  kept := fun _ _ _ _ sound sounds => sound.append sounds

theorem unflagged_stable (setting : Setting) (job : Job) :
    Stage.Stable (RepairOrder setting job) (fun c => c.isRepair = false)
      fun _ h => ¬Flagged h where
  allowed := fun _ _ _ first other => .of_other other first
  kept := fun _ _ _ _ first other => not_flagged_append first other

theorem sounds_of_looks (c : Call) (looks : c.Looks) : c.Sounds :=
  ⟨(unfound_of_looks c looks).1, lockFree_of_looks c looks⟩

theorem InRepair.append {e : Event surroundings} (inRepair : InRepair endpoint own sofar h)
    (free : Call.LockFree e.call) : InRepair endpoint own (sofar ++ [e]) (h ++ [e]) := by
  obtain ⟨before, rfl, entered, unheld⟩ := inRepair
  exact ⟨before, by simp, entered, heldLocks_lockFree unheld free⟩

theorem InRepair.inOrder (inRepair : InRepair endpoint own sofar h)
    (step : RepairStep setting job endpoint sofar c) : RepairOrder setting job h c where
  entered := by
    rintro rfl
    cases step
  inOrder := fun _ => .inl ⟨endpoint, own, sofar, inRepair, step⟩

theorem InRepair.repaired (inRepair : InRepair endpoint own sofar h)
    (course : RepairCourse setting job endpoint own sofar last) : Repaired setting job last h :=
  ⟨endpoint, own, sofar, [], by rwa [List.append_nil], course, List.forall_mem_nil _⟩

theorem Repaired.append {e : Event surroundings} (repaired : Repaired setting job last h)
    (closes : Call.Closes job e.call) : Repaired setting job last (h ++ [e]) := by
  obtain ⟨endpoint, own, repair, closing, inRepair, course, closed⟩ := repaired
  refine ⟨endpoint, own, repair, closing ++ [e], ?_, course,
    List.forall_mem_append.mpr ⟨closed, List.forall_mem_singleton.mpr closes⟩⟩
  rw [← List.append_assoc]
  exact inRepair.append closes.assists.lockFree

def Granted (endpoint : String) (guard : Guard) (h : History surroundings) : Prop :=
  ∃ (lock : LockRequest) (limit : Duration) (grant : LockGrant), lock.mode = .hard ∧
    guard.name = ⟨endpoint, lock.database, lock.lockId, lock.clientId⟩ ∧
    ⟨.leader endpoint (.acquireLock lock) limit, .ok grant⟩ ∈ h

theorem Granted.append {guard : Guard} (granted : Granted endpoint guard h)
    (later : History surroundings) : Granted endpoint guard (h ++ later) := by
  obtain ⟨lock, limit, grant, hard, name, mem⟩ := granted
  exact ⟨lock, limit, grant, hard, name, List.mem_append_left later mem⟩

/-- Under the hard lock, up to the moment when the server registers. -/
structure HardHeld (endpoint : String) (guard : Guard) (j : Journal) (h : History surroundings) :
    Prop where
  sound : Sound [guard.name] h
  granted : Granted endpoint guard h
  phase : j.phase = .hardLockFinalize

theorem hardHeld_stable (setting : Setting) (job : Job) (endpoint : String) (guard : Guard) :
    Stage.Stable (RepairOrder setting job) Call.Sounds (HardHeld endpoint guard) where
  allowed := fun _ _ _ held sounds => .of_other sounds.1 held.sound.first
  kept := fun _ _ _ _ held sounds =>
    ⟨held.sound.append sounds, held.granted.append _, held.phase⟩

structure FailedLocked (endpoint : String) (guard : Guard) (fault : Fault) (j : Journal)
    (h : History surroundings) : Prop where
  sound : Sound [guard.name] h
  registering : j.phase = .addFollower → ∃ early failed, h = early ++ [failed] ∧
    Granted endpoint guard early ∧ FailsToRegister endpoint fault failed

theorem HardHeld.failed {guard : Guard} {j : Journal} (held : HardHeld endpoint guard j h)
    (fault : Fault) : FailedLocked endpoint guard fault j h where
  sound := held.sound
  registering := fun phase => by
    rw [held.phase] at phase
    cases phase

structure Unlocked (endpoint : String) (fault : Fault) (j : Journal) (h : History surroundings) :
    Prop where
  sound : Sound [] h
  registering : j.phase = .addFollower → HardLockCancelled endpoint fault h

theorem FailedLocked.unlocked {guard : Guard} {fault : Fault} {j : Journal}
    (failed : FailedLocked endpoint guard fault j h) (answer : Except Fault Unit) :
    Unlocked endpoint fault j (h ++ [⟨guard.cancelling, answer⟩]) where
  sound := ⟨not_flagged_append failed.sound.first rfl, heldLocks_cancel failed.sound.held_eq rfl⟩
  registering := fun phase => by
    obtain ⟨early, failure, rfl, ⟨lock, limit, grant, hard, name, granted⟩, fails⟩ :=
      failed.registering phase
    obtain ⟨endpoint, database, clientId, lockId, _, cancelLimit⟩ := guard
    obtain ⟨rfl, rfl, rfl, rfl⟩ := LockName.mk.inj name
    rw [List.append_assoc]
    exact .intro answer hard granted fails

end

section
variable (setting : Setting) (job : Job) (endpoint : String)

section
variable {j : Journal} {h : History surroundings}

theorem acquireLock_hard_grants {ttl : Duration} (phase : j.phase = .hardLockFinalize)
    (first : ¬Flagged h) :
    (acquireLock setting job endpoint .hard ttl).Keeps (RepairOrder setting job)
      (fun guard j h => j.phase = .hardLockFinalize ∧ ¬Flagged h ∧ Granted endpoint guard h)
      (fun _ _ h => ¬Flagged h) j h := by
  have ordinary {c : Call} {r : c.Reply} {h : History surroundings} (first : ¬Flagged h)
      (other : c.isRepair = false) := not_flagged_append (r := r) first other
  refine keeps_classified setting job
    ((unflagged_stable setting job).mono fun c looks => (unfound_of_looks c looks).1)
    ((keeps_acquire ..).mpr
      ⟨.of_other rfl first, fun fault => ordinary first rfl, fun lockId => ?_⟩)
  have fetched := ordinary (r := .ok lockId) first
    (c := .leader endpoint (.newLockId job.database) ttl) rfl
  refine ⟨.of_other rfl fetched, fun grant => ⟨phase, ordinary fetched rfl, ?granted⟩,
    fun fault => ?refused⟩
  case granted => exact ⟨_, _, grant, rfl, rfl, List.mem_append_right _ (List.mem_singleton_self _)⟩
  case refused =>
    have refused := ordinary (r := .error fault) fetched (c := .leader endpoint (.acquireLock
      { lockRequest setting job .hard ttl with lockId }) ttl) rfl
    exact ⟨fun _ => refused, fun _ => ⟨.of_other rfl refused, fun _ => ordinary refused rfl⟩⟩

theorem adoptTerm_holds (guard : Guard) :
    (adoptTerm job).Preserves (RepairOrder setting job) (HardHeld endpoint guard) := by
  have stable := hardHeld_stable setting job endpoint guard
  refine .bind Stage.preserves_get fun j => .bind ?_ fun _ => ?_
  · exact Stage.preserves_attempt stable ⟨⟨rfl, rfl, rfl⟩, fun _ => trivial⟩
  · exact Stage.preserves_act stable ⟨⟨rfl, rfl, rfl⟩, fun _ => trivial⟩

theorem finalizeLog_holds (guard : Guard) :
    (finalizeLog setting job).Preserves (RepairOrder setting job) (HardHeld endpoint guard) := by
  refine .bind Stage.preserves_get fun j => ?_
  exact classified_preserves setting job (hardHeld_stable setting job endpoint guard)
    sounds_of_looks ⟨⟨rfl, rfl, rfl⟩, fun _ => trivial⟩

theorem register_fails {guard : Guard} {syncerId lockId : UInt64}
    (held : HardHeld endpoint guard j h) :
    (register setting job endpoint syncerId lockId).Keeps (RepairOrder setting job)
      (fun _ _ => Sound [guard.name]) (FailedLocked endpoint guard) j h := by
  have counted (answer : Except Fault UInt64) := held.sound.append (c := .documentCount)
    (r := answer) ⟨rfl, rfl, rfl⟩
  simp only [register, ask_eq, Stage.keeps_bind, Stage.keeps_enter, Stage.keeps_attempt,
    Stage.keeps_modify, Program.keeps_call, Program.keeps_done]
  refine ⟨.of_other rfl held.sound.first, ?_⟩
  rintro (fault | count)
  · exact ⟨counted (.error fault), fun _ => ⟨h, _, rfl, held.granted, .uncounted⟩⟩
  · have asked (answer : Except Fault Unit) := (counted (.ok count)).append (r := answer)
      (c := .leader endpoint (.addFollower (addFollowerRequest setting job count syncerId lockId))
        setting.settings.addFollowerTimeout) ⟨rfl, rfl, rfl⟩
    refine ⟨.of_other rfl (counted _).first, ?_⟩
    rintro (fault | ⟨⟩)
    · exact ⟨asked (.error fault), fun _ => ⟨_, _, rfl, held.granted.append _, .refused _ _⟩⟩
    · exact asked (.ok ())

theorem finalizeAndRegister_fails {guard : Guard} {syncerId lockId : UInt64}
    (held : HardHeld endpoint guard j h) :
    (finalizeAndRegister setting job endpoint syncerId lockId).Keeps (RepairOrder setting job)
      (fun _ _ => Sound [guard.name]) (FailedLocked endpoint guard) j h := by
  have failed (fault : Fault) (j : Journal) (h : History surroundings)
      (held : HardHeld endpoint guard j h) := held.failed fault
  unfold finalizeAndRegister
  rw [Stage.keeps_bind]
  refine (adoptTerm_holds setting job endpoint guard j h held).mono (fun _ j h held => ?_) failed
  rw [Stage.keeps_bind]
  refine (finalizeLog_holds setting job endpoint guard j h held).mono (fun _ j h held => ?_) failed
  exact register_fails setting job endpoint held

theorem wraps_mismatch (own : Fault) : Wraps own (mismatch own) := by
  cases own with
  | checksumMismatch reason => exact .kept reason
  | _ => exact .wrapped nofun

theorem repairChecksum_inOrder {own : Fault} (entered : Entered endpoint own h) :
    (repairChecksum setting job endpoint).Keeps (RepairOrder setting job)
      (fun _ _ => Repaired setting job (mismatch own))
      (fun last _ => Repaired setting job last) j h := by
  have flagged : heldLocks (h ++ [⟨.flagging, ()⟩]) = [] :=
    heldLocks_lockFree entered.unheld ⟨rfl, rfl⟩
  have begun : InRepair endpoint own [] (h ++ [⟨.flagging, ()⟩]) := ⟨h, rfl, entered, flagged⟩
  have wraps := wraps_mismatch own
  simp only [repairChecksum, ask_eq, Stage.keeps_bind, Stage.keeps_act, Stage.keeps_attempt,
    Stage.keeps_ite, Stage.keeps_pure, Program.keeps_call, Program.keeps_done]
  refine ⟨⟨fun _ => ⟨endpoint, own, entered⟩, fun flagged => absurd flagged entered.first⟩,
    fun _ => ⟨begun.inOrder .counts, ?_⟩⟩
  rintro (fault | old)
  · exact (begun.append ⟨rfl, rfl⟩).repaired (.uncounted fault)
  · have counted := begun.append (e := ⟨.documentCount, .ok old⟩) ⟨rfl, rfl⟩
    refine ⟨counted.inOrder (.recounts old), ?_⟩
    rintro (fault | new)
    · exact (counted.append ⟨rfl, rfl⟩).repaired (.unrecounted old fault)
    · have recounted := counted.append (e := ⟨.recountDocuments, .ok new⟩) ⟨rfl, rfl⟩
      refine ⟨?_, fun changes => recounted.repaired (.changed changes wraps)⟩
      rintro rfl
      refine ⟨recounted.inOrder (.recalculates old), fun answer => ?_⟩
      exact (recounted.append ⟨rfl, rfl⟩).repaired (.unchanged old answer wraps)

theorem concludeHardLock_repairs {fault : Fault} (unlocked : Unlocked endpoint fault j h) :
    (concludeHardLock setting job endpoint (.error fault)).Keeps (RepairOrder setting job)
      (fun _ _ h => ¬Flagged h) (fun last _ h => ¬Flagged h ∨ Repaired setting job last h) j h := by
  simp only [concludeHardLock, Stage.keeps_bind, Stage.keeps_get, Stage.keeps_ite,
    Stage.keeps_throw]
  refine ⟨fun repairs => ?_, fun _ => .inl unlocked.sound.first⟩
  have entered : Entered endpoint fault h :=
    ⟨repairs.2, unlocked.registering repairs.1, unlocked.sound.held_eq, unlocked.sound.first⟩
  exact (repairChecksum_inOrder setting job endpoint entered).mono (fun _ _ _ => .inr)
    fun _ _ _ => .inr

theorem catchUpHard_repairs {syncerId : UInt64} (sound : Sound [] h) :
    (catchUpHard setting job endpoint syncerId).Keeps (RepairOrder setting job)
      (fun _ _ h => ¬Flagged h) (fun last _ h => ¬Flagged h ∨ Repaired setting job last h) j h := by
  simp only [catchUpHard, Stage.keeps_bind, Stage.keeps_enter, Stage.keeps_modify,
    Stage.keeps_result, Stage.keeps_act]
  refine ((acquireLock_hard_grants setting job endpoint rfl sound.first).and
    (acquireLock_keeps setting job endpoint .hard _ sound.held_eq)).mono ?_
    fun _ _ _ left => .inl left.1
  rintro guard j h ⟨⟨phase, first, granted⟩, held_eq⟩
  have held : HardHeld endpoint guard
      { j with
        term := guard.grant.term
        progress := { j.progress with upperBound := guard.grant.lastLogTick } } h :=
    ⟨⟨first, held_eq⟩, granted, phase⟩
  refine (finalizeAndRegister_fails setting job endpoint held).mono ?_ ?_
  · intro _ j h sound
    rw [keeps_releaseQuietly]
    exact ⟨.of_other rfl sound.first, fun answer => not_flagged_append sound.first rfl⟩
  · intro fault j h failed
    rw [keeps_releaseQuietly]
    refine ⟨.of_other rfl failed.sound.first, fun answer => ?_⟩
    exact concludeHardLock_repairs setting job endpoint (failed.unlocked answer)

theorem work_repairs (sound : Sound [] h) :
    (work setting job).Keeps (RepairOrder setting job) (fun _ _ h => ¬Flagged h)
      (fun last _ h => ¬Flagged h ∨ Repaired setting job last h) j h := by
  have stable := sound_stable setting job []
  have early (fault : Fault) (j : Journal) (h : History surroundings) (sound : Sound [] h) :
      ¬Flagged h ∨ Repaired setting job fault h := .inl sound.first
  have stoodBy := standBy_preserves setting job
    (stable.mono fun c waits => ⟨(unfound_of_waits c waits).1, waits.assists.lockFree⟩)
    (stable.mono sounds_of_looks) (fun _ _ _ => id) j h sound
  rw [work_eq, Stage.keeps_bind]
  refine stoodBy.mono (fun _ j h sound => ?_) early
  have prepared := (prepare_uses setting job).mono fun c prepares =>
    (⟨(opens_of_prepares c prepares).1, prepares.lockFree⟩ : c.Sounds)
  refine prepared.andThen stable sound early fun endpoint j h sound => ?_
  have copied := (copyShard_uses setting job endpoint).mono fun c copies =>
    (⟨(unfound_of_copies c copies).1, copies.lockFree⟩ : c.Sounds)
  refine copied.andThen stable sound early fun syncerId j h sound => ?_
  rw [Stage.keeps_bind]
  have followed := ((catchUpSoftly_uses setting job endpoint).mono fun c follows =>
    (unfound_of_follows c follows).1).preserves (unflagged_stable setting job) j h sound.first
  refine (followed.and (catchUpSoftly_balanced setting job endpoint j h sound.held_eq)).mono ?_
    fun _ _ _ left => .inl left.1
  rintro _ j h ⟨first, held_eq⟩
  have stopping := unlessStopping_uses.mono sounds_of_looks
  refine stopping.andThen stable ⟨first, held_eq⟩ early fun _ j h sound => ?_
  exact catchUpHard_repairs setting job endpoint sound

theorem outcome_stable (fault : Option Fault) :
    Stage.Stable (RepairOrder setting job) (Call.Closes job) fun _ h =>
      ¬Flagged h ∨ ∃ last, fault = some last ∧ Repaired setting job last h where
  allowed := by
    rintro _ h c (first | ⟨last, -, repaired⟩) closes
    · exact .of_other (unfound_of_closes c closes).1 first
    · exact ⟨fun flags => absurd flags (not_flagging_of_isRepair (unfound_of_closes c closes).1),
        fun _ => .inr ⟨⟨last, repaired⟩, closes⟩⟩
  kept := by
    rintro _ h c r (first | ⟨last, ended, repaired⟩) closes
    · exact .inl (not_flagged_append first (unfound_of_closes c closes).1)
    · exact .inr ⟨last, ended, repaired.append closes⟩

theorem run_keeps_repairOrder :
    (run setting job).Keeps (RepairOrder setting job) (fun report h =>
      ¬Flagged h ∨ ∃ last, report.fault = some last ∧ Repaired setting job last h) [] := by
  have first : ¬Flagged [] := List.not_mem_nil
  refine (keeps_run_of_stable setting job (.of_other rfl first)
    (I := fun fault _ h => ¬Flagged h ∨ ∃ last, fault = some last ∧ Repaired setting job last h)
    (outcome_stable setting job) fun began => ?_).mono ?_
  · have begun : Sound [] [(⟨.now, began⟩ : Event surroundings)] :=
      Sound.append (h := []) (c := .now) ⟨first, rfl⟩ ⟨rfl, rfl, rfl⟩
    refine (work_repairs setting job begun).mono (fun _ _ _ => .inl) ?_
    exact fun last _ _ known => known.imp_right fun repaired => ⟨last, rfl, repaired⟩
  · rintro _ h ⟨j, fault, ⟨elapsed, rfl⟩, known⟩
    exact known

theorem RepairCourse.asks_iff {own last : Fault} {repair : History surroundings}
    (course : RepairCourse setting job endpoint own repair last) :
    (∃ e ∈ repair, Event.call e = recalculating setting job endpoint) ↔
      ∃ count, ⟨.documentCount, .ok count⟩ ∈ repair ∧ ⟨.recountDocuments, .ok count⟩ ∈ repair := by
  cases course with
  | changed changes _ => simpa using changes
  | _ => simp

theorem RepairCourse.wraps {own last : Fault} {repair : History surroundings} {old new : UInt64}
    (course : RepairCourse setting job endpoint own repair last)
    (counted : ⟨.documentCount, .ok old⟩ ∈ repair)
    (recounted : ⟨.recountDocuments, .ok new⟩ ∈ repair) : Wraps own last := by
  cases course with
  | uncounted => simp at counted
  | unrecounted => simp at recounted
  | changed _ wraps => exact wraps
  | unchanged _ _ wraps => exact wraps

end

/-- A repair is entered when the hard lock was cancelled after a failure to register, and its calls
come in order while no lock is held. A run in which it is entered goes through with it, asks the
leader if and only if both counts here succeed and agree, and ends with a mismatch of the counts if
both succeed. -/
theorem run_repairs_in_order (es : History surroundings) :
    (∀ c next, Steps (run setting job) es (.call c next) → RepairOrder setting job es c) ∧
    ∀ report, Runs (run setting job) es report → Flagged es →
      ∃ endpoint own repair closing last, InRepair endpoint own (repair ++ closing) es ∧
        RepairCourse setting job endpoint own repair last ∧
        (∀ e ∈ closing, Call.Closes job e.call) ∧ report.fault = some last ∧
        ((∃ e ∈ repair, Event.call e = recalculating setting job endpoint) ↔
          ∃ count, ⟨.documentCount, .ok count⟩ ∈ repair ∧
            ⟨.recountDocuments, .ok count⟩ ∈ repair) ∧
        ∀ old new, ⟨.documentCount, .ok old⟩ ∈ repair → ⟨.recountDocuments, .ok new⟩ ∈ repair →
          Wraps own last := by
  have k := run_keeps_repairOrder setting job
  refine ⟨fun c next steps => k.allowed steps, fun report runs flagged => ?_⟩
  obtain ⟨last, ended, endpoint, own, repair, closing, inRepair, course, closed⟩ :=
    (k.ended runs).resolve_left fun first => first flagged
  exact ⟨endpoint, own, repair, closing, last, inRepair, course, closed, ended, course.asks_iff,
    fun _ _ => course.wraps⟩

end

theorem refusedRun_repairs_in_order :
    (∃ before next, Steps (run calmSetting calmJob) before (.call .flagging next) ∧
      RepairOrder calmSetting calmJob before .flagging) ∧
    ∃ report endpoint own repair closing last,
      Runs (run calmSetting calmJob) (refusedRun (.ok 10)) report ∧ Flagged (refusedRun (.ok 10)) ∧
      InRepair endpoint own (repair ++ closing) (refusedRun (.ok 10)) ∧
      RepairCourse calmSetting calmJob endpoint own repair last ∧ report.fault = some last := by
  obtain ⟨report, runs⟩ := refusedRun_runs
  have flagged : Flagged (refusedRun (.ok 10)) := by
    rw [← mem_findings_flagged, refusedRun_findings]
    simp
  obtain ⟨before, after, split⟩ := List.append_of_mem flagged
  obtain ⟨next, steps⟩ := Steps.before (split ▸ runs)
  have order := (run_repairs_in_order calmSetting calmJob before).1 .flagging next steps
  obtain ⟨endpoint, own, repair, closing, last, inRepair, course, -, ended, -⟩ :=
    (run_repairs_in_order calmSetting calmJob _).2 report runs flagged
  exact ⟨⟨before, next, steps, order⟩, report, endpoint, own, repair, closing, last, runs,
    flagged, inRepair, course, ended⟩

end FollowerSync.Attempt
