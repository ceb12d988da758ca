import FollowerSync.Proofs.Milestones

set_option autoImplicit false

namespace FollowerSync.Attempt
open Leader

/-- The identifier of the leader under a grant. No term and the term zero add nothing to the name. -/
def identifier (leader : String) (grant : LockGrant) : String :=
  match grant.followingTermId with
  | none | some 0 => leader
  | some term => leader ++ "_" ++ toString term.toNat

theorem leaderId_eq_identifier (leader : String) (grant : LockGrant) :
    grant.term.leaderId leader = identifier leader grant := by
  unfold identifier LockGrant.term FollowingTerm.leaderId FollowingTerm.isSet
  cases grant.followingTermId with
  | none => rfl
  | some term =>
    by_cases zero : term = 0 <;> simp [zero]

structure Naming where
  replica : Option String := none
  syncer : List String := []
  /-- The grant of the hard lock, until its cancellation. -/
  held : Option LockGrant := none
  deriving DecidableEq

namespace Naming

def after (n : Naming) : Event surroundings → Naming
  | ⟨.setLeader id, _⟩ => { n with replica := some id }
  | ⟨.openTailingSyncer _ _ id, _⟩ | ⟨.followLeader id, _⟩ => { n with syncer := n.syncer ++ [id] }
  | ⟨.leader _ (.acquireLock lock) _, .ok grant⟩ =>
    if lock.mode = .hard then { n with held := some grant } else n
  | ⟨.leader _ (.cancelLock ..) _, _⟩ => { n with held := none }
  | _ => n

def identity (n : Naming) (leader : String) : String :=
  match n.held with
  | none => leader
  | some grant => identifier leader grant

/-- Whether a call fits the identifiers in use. -/
def Allows (job : Job) (n : Naming) : Call → Prop
  | .bulkSync .. | .catchUp .. => n.replica = some job.leader ∧ n.syncer = [job.leader]
  | .finalize .. | .leader _ (.addFollower _) _ =>
    n.held.isSome ∧ n.replica = some (n.identity job.leader) ∧
      n.syncer.getLast? = some (n.identity job.leader)
  | .setLeader id | .openTailingSyncer _ _ id | .followLeader id => id = n.identity job.leader
  | _ => True

/-- The call fits and its answer changes nothing. -/
def Ignores (job : Job) (n : Naming) (c : Call) : Prop :=
  n.Allows job c ∧ ∀ r, n.after ⟨c, r⟩ = n

end Naming

def naming (h : History surroundings) : Naming := h.foldl Naming.after {}

def NamingLaw (job : Job) (h : History surroundings) (c : Call) : Prop := (naming h).Allows job c

theorem naming_append {h : History surroundings} {n : Naming} (known : naming h = n)
    (e : Event surroundings) : naming (h ++ [e]) = n.after e := by
  rw [← known]
  simp [naming]

section
variable {job : Job} {n : Naming} {c : Call}

theorem ignores_stable (job : Job) (n : Naming) :
    Stage.Stable (NamingLaw job) (n.Ignores job) fun _ h => naming h = n where
  allowed := by
    rintro _ h c rfl ignores
    exact ignores.1
  kept := by
    intro _ h c r known ignores
    rw [naming_append known, ignores.2]

theorem Call.Assists.ignored (assists : c.Assists) : n.Ignores job c := by
  cases c with
  | leader endpoint request limit =>
    cases request with
    | collectionCount | recalculateCount => exact ⟨trivial, fun _ => rfl⟩
    | _ => cases assists
  | bulkSync | catchUp | finalize | setLeader | openTailingSyncer | followLeader => cases assists
  | _ => exact ⟨trivial, fun _ => rfl⟩

theorem assists_stable (job : Job) :
    Stage.Stable (NamingLaw job) Call.Assists fun _ (_ : History surroundings) => True where
  allowed := fun _ h _ _ assists => (assists.ignored (n := naming h)).1
  kept := fun _ _ _ _ _ _ => trivial

def Naming.bare (job : Job) : Naming := { replica := some job.leader, syncer := [job.leader] }

theorem Call.FollowsSoftly.ignored (softly : c.FollowsSoftly) :
    (Naming.bare job).Ignores job c := by
  cases c with
  | leader endpoint request limit =>
    cases request with
    | newLockId | cancelLock => exact ⟨trivial, fun _ => rfl⟩
    | acquireLock lock =>
      have soft : lock.mode = .soft := softly
      refine ⟨trivial, ?_⟩
      rintro (fault | grant)
      · rfl
      · simp [Naming.after, soft]
    | _ => cases softly
  | catchUp => exact ⟨⟨rfl, rfl⟩, fun _ => rfl⟩
  | bulkSync | finalize | setLeader | openTailingSyncer | followLeader => cases softly
  | _ => exact ⟨trivial, fun _ => rfl⟩

end

section
variable {n : Naming} {j : Journal} {h : History surroundings}
  (setting : Setting) (job : Job) (endpoint : String)

def Names {α : Type} (n : Naming) (s : Stage α) (j : Journal)
    (h : History surroundings) : Prop :=
  s.Keeps (NamingLaw job) (fun _ _ h => naming h = n) (fun _ _ _ => True) j h

theorem names_of_uses {α : Type} {s : Stage α} (u : s.Uses (n.Ignores job))
    (known : naming h = n) : Names job n s j h :=
  (u.preserves (ignores_stable job n) j h known).mono (fun _ _ _ => id) fun _ _ _ _ => trivial

theorem prepare_names (known : naming h = {}) :
    Names job { syncer := [job.leader] } (prepare setting job) j h := by
  have stable := (ignores_stable job {}).mono
    fun _ (surveys : Call.Surveys job _) => surveys.assists.ignored
  refine keeps_prepare setting job stable (fun _ _ _ _ => id) (fun _ _ _ _ => trivial) ?_ known
  intro endpoint j h known
  have opened := naming_append known ⟨.openTailingSyncer job.database endpoint job.leader, ()⟩
  have looked := naming_append opened ⟨.stopping, false⟩
  refine ⟨?_, trivial, trivial, looked⟩
  unfold NamingLaw
  rw [known]
  rfl

theorem copyShard_names (known : naming h = { syncer := [job.leader] }) :
    Names job (.bare job) (copyShard setting job endpoint) j h := by
  have named := naming_append known ⟨.setLeader job.leader, .ok ()⟩
  have opened := naming_append named ⟨.openBulkSyncer job.database, ()⟩
  unfold Names
  rw [keeps_copyShard]
  refine ⟨?naming, fun _ => trivial, trivial, ?copying, fun fault => ?failed, fun outcome => ?_⟩
  case naming =>
    unfold NamingLaw
    rw [known]
    rfl
  case copying =>
    unfold NamingLaw
    rw [opened]
    exact ⟨rfl, rfl⟩
  case failed =>
    have looks := (assists_stable job).mono fun _ => Call.Looks.assists
    exact classify_preserves setting job looks fault _ _ trivial
  · exact ⟨fun _ => trivial, fun _ => naming_append opened ⟨.bulkSync .., .ok outcome⟩⟩

theorem acquireLock_hard_names (known : naming h = .bare job) (ttl : Duration) :
    (acquireLock setting job endpoint .hard ttl).Keeps (NamingLaw job)
      (fun guard _ h => naming h = { Naming.bare job with held := some guard.grant })
      (fun _ _ _ => True) j h := by
  have looks := (assists_stable job).mono fun _ => Call.Looks.assists
  refine keeps_classified setting job looks ((keeps_acquire ..).mpr ?_)
  refine ⟨trivial, fun fault => trivial, fun lockId => ⟨trivial, fun grant => ?_, fun fault => ?_⟩⟩
  · have fetched := naming_append known ⟨.leader endpoint (.newLockId job.database) ttl, .ok lockId⟩
    exact naming_append fetched ⟨.leader endpoint (.acquireLock _) ttl, .ok grant⟩
  · exact ⟨fun _ => trivial, fun _ => ⟨trivial, fun _ => trivial⟩⟩

def Naming.adopted (job : Job) (grant : LockGrant) : Naming where
  replica := some (identifier job.leader grant)
  syncer := [job.leader, identifier job.leader grant]
  held := some grant

theorem adoptTerm_names {grant : LockGrant} (term : j.term = grant.term)
    (known : naming h = { Naming.bare job with held := some grant }) :
    Names job (.adopted job grant) (adoptTerm job) j h := by
  have same : j.term.leaderId job.leader = identifier job.leader grant := by
    rw [term, leaderId_eq_identifier]
  simp only [Names, adoptTerm, ask_eq, Stage.keeps_bind, Stage.keeps_get, Stage.keeps_attempt,
    Stage.keeps_act, Program.keeps_call, Program.keeps_done]
  refine ⟨?_, ?_⟩
  · unfold NamingLaw
    rw [known]
    exact same
  · rintro (fault | _)
    · trivial
    · have told := naming_append known ⟨.setLeader (j.term.leaderId job.leader), .ok ()⟩
      refine ⟨?_, fun _ => ?_⟩
      · unfold NamingLaw
        rw [told]
        exact same
      · rw [naming_append told]
        simp [Naming.after, Naming.bare, Naming.adopted, same]

theorem finalizeLog_uses_adopted (grant : LockGrant) :
    (finalizeLog setting job).Uses ((Naming.adopted job grant).Ignores job) := by
  refine .bind Stage.uses_get fun j => ?_
  refine classified_uses setting job ⟨⟨⟨rfl, rfl, rfl⟩, fun _ => rfl⟩, fun _ => trivial⟩ ?_
  exact fun _ looks => looks.assists.ignored

theorem register_uses_adopted (grant : LockGrant) (syncerId lockId : UInt64) :
    (register setting job endpoint syncerId lockId).Uses ((Naming.adopted job grant).Ignores job) := by
  refine .bind (Stage.uses_enter _) fun _ => .bind ?counted fun checksum =>
    .bind (Stage.uses_modify _) fun _ => ?registered
  case counted => exact Stage.uses_attempt ⟨⟨trivial, fun _ => rfl⟩, fun _ => trivial⟩
  case registered => exact Stage.uses_attempt ⟨⟨⟨rfl, rfl, rfl⟩, fun _ => rfl⟩, fun _ => trivial⟩

theorem finalizeAndRegister_names {grant : LockGrant} (term : j.term = grant.term)
    (known : naming h = { Naming.bare job with held := some grant }) (syncerId lockId : UInt64) :
    Names job (.adopted job grant) (finalizeAndRegister setting job endpoint syncerId lockId) j h := by
  unfold Names finalizeAndRegister
  rw [Stage.keeps_bind]
  refine (adoptTerm_names job term known).mono (fun _ j h adopted => ?_) fun _ _ _ => id
  have rest := (finalizeLog_uses_adopted setting job grant).bind fun _ =>
    register_uses_adopted setting job endpoint grant syncerId lockId
  exact names_of_uses job rest adopted

theorem conclude_names (guard : Guard) (result : Except Fault Unit) :
    guard.releaseQuietly.Keeps (NamingLaw job) (fun _ h =>
      (concludeHardLock setting job endpoint result).Keeps (NamingLaw job)
        (fun _ _ _ => True) (fun _ _ _ => True) j h) h := by
  have repairs := (assists_stable job).mono fun _ => Call.Repairs.assists
  refine ⟨trivial, fun answer => ?_⟩
  exact concludeHardLock_preserves setting job repairs endpoint result j _ trivial

theorem catchUpHard_names (syncerId : UInt64) (known : naming h = .bare job) :
    (catchUpHard setting job endpoint syncerId).Keeps (NamingLaw job)
      (fun _ _ _ => True) (fun _ _ _ => True) j h := by
  simp only [catchUpHard, Stage.keeps_bind, Stage.keeps_enter, Stage.keeps_modify,
    Stage.keeps_result, Stage.keeps_act]
  refine (acquireLock_hard_names setting job endpoint known _).mono (fun guard j h granted => ?_)
    fun _ _ _ => id
  have finalized := finalizeAndRegister_names (j := { j with
    term := guard.grant.term
    progress := { j.progress with upperBound := guard.grant.lastLogTick } }) setting job endpoint
    rfl granted syncerId guard.lockId
  refine finalized.mono ?_ ?_
  · exact fun _ j h _ => conclude_names setting job endpoint guard (.ok ())
  · exact fun fault j h _ => conclude_names setting job endpoint guard (.error fault)

theorem work_names (known : naming h = {}) :
    (work setting job).Keeps (NamingLaw job) (fun _ _ _ => True) (fun _ _ _ => True) j h := by
  have waits := (ignores_stable job {}).mono
    fun _ (waits : Call.Waits job _) => waits.assists.ignored
  have looks := (ignores_stable job {}).mono
    fun _ (looks : Call.Looks _) => looks.assists.ignored
  have stoodBy := standBy_preserves setting job waits looks (fun _ _ _ => id) j h known
  simp only [work_eq, Stage.keeps_bind]
  refine stoodBy.mono (fun _ j h known => ?_) fun _ _ _ _ => trivial
  refine (prepare_names setting job known).mono (fun endpoint j h known => ?_) fun _ _ _ => id
  refine (copyShard_names setting job endpoint known).mono (fun syncerId j h known => ?_)
    fun _ _ _ => id
  have softly (c : Call) := @Call.FollowsSoftly.ignored job c
  have followed := (catchUpSoftly_usesSoftly setting job endpoint).mono softly
  have looked := unlessStopping_uses.mono fun c looks => softly c looks.followsSoftly
  refine (names_of_uses job followed known).mono (fun _ j h known => ?_) fun _ _ _ => id
  refine (names_of_uses job looked known).mono (fun _ j h known => ?_) fun _ _ _ => id
  exact catchUpHard_names setting job endpoint syncerId known

theorem run_keeps_namingLaw : (run setting job).Keeps (NamingLaw job) (fun _ _ => True) [] := by
  have closes := (assists_stable job).mono
    fun _ (closes : Call.Closes job _) => closes.assists
  refine (keeps_run_of_stable setting job trivial (fun _ => closes) fun began => ?_).mono ?_
  · exact work_names setting job rfl
  · exact fun _ _ _ => trivial

/-- Whatever is copied, followed, finalized and registered in an attempt, both sides know the leader
by the identifier that goes with the lock, and are never told another. -/
theorem run_names_leader_by_grant {es : History surroundings} {c : Call}
    {next : c.Reply → Act Report} (steps : Steps (run setting job) es (.call c next)) :
    (naming es).Allows job c :=
  (run_keeps_namingLaw setting job).allowed steps

end

theorem calmRun_names_leader_by_grant :
    ∃ (before : History surroundings) (c : Call) (next : c.Reply → Act Report),
      Steps (run calmSetting calmJob) before (.call c next) ∧ Call.isRegistration c = true ∧
      (naming before).identity "L" = "L_3" ∧ (naming before).Allows calmJob c := by
  have registers : (calmRun.1[26]?.any fun e => Call.isRegistration e.call) = true := by
    decide +kernel
  obtain ⟨e, found, registers⟩ := (Option.any_eq_true _ _).mp registers
  obtain ⟨next, steps⟩ := Steps.nth calmRun_runs found
  exact ⟨calmRun.1.take 26, e.call, next, steps, registers, by decide +kernel,
    run_names_leader_by_grant calmSetting calmJob steps⟩

end FollowerSync.Attempt
