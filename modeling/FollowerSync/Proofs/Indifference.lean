import FollowerSync.Proofs.Footprints
import FollowerSync.Proofs.Mismatches

/-!
# Answers that do not matter

Some calls are made for the sake of others: a lock is cancelled that may never have been granted, a
leader is asked to count anew for the next attempt. What is answered to them changes nothing: in two
worlds that differ only in these answers an attempt makes the same calls at the same times and ends
with the same report.
-/

set_option autoImplicit false

namespace FollowerSync

/-- A world answers calls, if at all, and changes its state by it. The clock and all that is stored
are part of the state. -/
abbrev World (S : Signature) (σ : Type) := (c : S.Call) → σ → σ × Option (S.Reply c)

namespace Program
variable {S : Signature} {α β σ : Type} {spared : History S → S.Call → Prop} {w w' : World S σ}
  {Q : α → History S → Prop} {R : β → History S → Prop} {p : Program S α} {h : History S}

def calls (w : World S σ) : Program S α → σ → List (σ × S.Call)
  | done _, _ => []
  | call c next, s =>
    (s, c) :: match w c s with
      | (s, some r) => (next r).calls w s
      | (_, none) => []

/-- As long as the program runs in the first world, the second world does the same to its state and
gives the same answers, save for the spared calls, to which it answers as it likes. -/
def AlikeBut (spared : History S → S.Call → Prop) (w w' : World S σ) :
    Program S α → History S → σ → Prop
  | done _, _, _ => True
  | call c next, h, s =>
    (w c s).1 = (w' c s).1 ∧ (w c s).2.isSome = (w' c s).2.isSome ∧
      (¬spared h c → (w c s).2 = (w' c s).2) ∧
      ∀ r, (w c s).2 = some r → (next r).AlikeBut spared w w' (h ++ [⟨c, r⟩]) (w c s).1

/-- Whatever is answered to a spared call, the program goes on in the same way. -/
def Indifferent (spared : History S → S.Call → Prop) (Q : α → History S → Prop) :
    Program S α → History S → Prop
  | done a, h => Q a h
  | call c next, h =>
    (spared h c → ∀ r r', next r = next r') ∧ ∀ r, (next r).Indifferent spared Q (h ++ [⟨c, r⟩])

theorem Indifferent.bind {f : α → Program S β} (first : p.Indifferent spared Q h)
    (rest : ∀ a h, Q a h → (f a).Indifferent spared R h) : (p.bind f).Indifferent spared R h := by
  induction p generalizing h with
  | done a => exact rest a h first
  | call c next ih =>
    obtain ⟨same, onward⟩ := first
    refine ⟨fun spare r r' => ?_, fun r => ih r (onward r)⟩
    simp only [same spare r r']

theorem Indifferent.mono {Q' : α → History S → Prop} (indifferent : p.Indifferent spared Q h)
    (weaker : ∀ a h, Q a h → Q' a h) : p.Indifferent spared Q' h := by
  induction p generalizing h with
  | done a => exact weaker a h indifferent
  | call c next ih => exact ⟨indifferent.1, fun r => ih r (indifferent.2 r)⟩

theorem Keeps.indifferent {ok : History S → S.Call → Prop} (k : p.Keeps ok Q h)
    (unspared : ∀ h c, ok h c → ¬spared h c) : p.Indifferent spared Q h := by
  induction p generalizing h with
  | done a => exact k
  | call c next ih => exact ⟨fun spare => absurd spare (unspared h c k.1), fun r => ih r (k.2 r)⟩

theorem indifferent_call_const {c : S.Call} (q : Program S α)
    (rest : ∀ r, q.Indifferent spared Q (h ++ [⟨c, r⟩])) :
    (call c fun _ => q).Indifferent spared Q h :=
  ⟨fun _ _ _ => rfl, rest⟩

/-- An indifferent program does not tell worlds apart that are alike but for the spared answers. -/
theorem Indifferent.same {s : σ} (indifferent : p.Indifferent spared Q h)
    (alike : p.AlikeBut spared w w' h s) :
    p.calls w s = p.calls w' s ∧ p.play w s = p.play w' s := by
  induction p generalizing h s with
  | done a => exact ⟨rfl, rfl⟩
  | call c next ih =>
    obtain ⟨constant, onward⟩ := indifferent
    obtain ⟨state, answered, answer, later⟩ := alike
    unfold calls play
    rcases first : w c s with ⟨t, reply⟩
    rcases second : w' c s with ⟨t', reply'⟩
    simp only [first, second] at state answered answer later
    subst state
    cases reply with
    | none =>
      cases reply' with
      | none => exact ⟨rfl, rfl⟩
      | some r' => cases answered
    | some r =>
      cases reply' with
      | none => cases answered
      | some r' =>
        have continues : next r = next r' := by
          by_cases spare : spared h c
          · exact constant spare r r'
          · rw [Option.some.inj (answer spare)]
        obtain ⟨sameCalls, sameEnd⟩ := ih r (onward r) (later r rfl)
        simp only [← continues, sameCalls, sameEnd, and_self]

theorem noting_eq {rule : History S → (c : S.Call) → Option (S.Reply c)} {c : S.Call}
    {r : S.Reply c} (replied : (noting rule c h).2 = some r) :
    (noting rule c h).1 = h ++ [⟨c, r⟩] := by
  unfold noting at replied ⊢
  cases answered : rule h c with
  | none => simp [answered] at replied
  | some r' =>
    simp only [answered, Option.some.injEq] at replied
    rw [replied]

theorem alikeBut_of_seen (seen : σ → History S) {s : σ}
    (noted : ∀ c s r, (w c s).2 = some r → seen (w c s).1 = seen s ++ [⟨c, r⟩])
    (state : ∀ c s, (w c s).1 = (w' c s).1)
    (answered : ∀ c s, (w c s).2.isSome = (w' c s).2.isSome)
    (answer : ∀ c s, ¬spared (seen s) c → (w c s).2 = (w' c s).2) :
    p.AlikeBut spared w w' (seen s) s := by
  induction p generalizing s with
  | done a => trivial
  | call c next ih =>
    refine ⟨state c s, answered c s, answer c s, fun r replied => ?_⟩
    rw [← noted c s r replied]
    exact ih r

end Program

namespace Attempt
open Leader

def lockMode : Event surroundings → Option LockMode
  | ⟨.leader _ (.acquireLock lock) _, _⟩ => some lock.mode
  | _ => none

/-- The calls of an attempt whose answers do not matter. -/
inductive BestEffort (h : History surroundings) : Call → Prop
  /-- The lock was refused just now. -/
  | refused {asked : String} {lock : LockRequest} {wait : Duration} {fault : Fault}
      (last : h.getLast? = some ⟨.leader asked (.acquireLock lock) wait, .error fault⟩)
      (endpoint database : String) (lockId : UInt64) (clientId : String) (limit : Duration) :
      BestEffort h (.leader endpoint (.cancelLock database lockId clientId) limit)
  /-- The round under the lock failed just now. -/
  | failedRound {shard : String} {start : Tick} {budget : Duration} {context : Context}
      {fault : Fault} (last : h.getLast? = some ⟨.catchUp shard start budget context, .error fault⟩)
      (endpoint database : String) (lockId : UInt64) (clientId : String) (limit : Duration) :
      BestEffort h (.leader endpoint (.cancelLock database lockId clientId) limit)
  /-- The hard lock was the last lock asked for. -/
  | hardLock (last : (marks lockMode h).getLast? = some .hard)
      (endpoint database : String) (lockId : UInt64) (clientId : String) (limit : Duration) :
      BestEffort h (.leader endpoint (.cancelLock database lockId clientId) limit)
  | recalculation (endpoint database shard : String) (limit : Duration) :
      BestEffort h (.leader endpoint (.recalculateCount database shard) limit)

def Call.Matters : Call → Prop
  | .leader _ (.cancelLock ..) _ | .leader _ (.recalculateCount ..) _ => False
  | _ => True

theorem Call.Matters.not_bestEffort {c : Call} (matters : c.Matters) (h : History surroundings) :
    ¬BestEffort h c := by
  rintro (_ | _ | _ | _) <;> exact matters

theorem indifferent_call {α : Type} {Q : α → History surroundings → Prop} {c : Call}
    {next : c.Reply → Act α} {h : History surroundings} (matters : c.Matters)
    (rest : ∀ r, Program.Indifferent BestEffort Q (next r) (h ++ [⟨c, r⟩])) :
    Program.Indifferent BestEffort Q (.call (S := surroundings) c next) h :=
  ⟨fun spare => absurd spare (matters.not_bestEffort h), rest⟩

theorem indifferent_of_matters {α : Type} {p : Act α} (u : p.Uses Call.Matters)
    (h : History surroundings) : Program.Indifferent BestEffort (fun _ _ => True) p h := by
  have kept : p.Keeps (fun _ => Call.Matters) (fun _ _ => True) h :=
    u.keeps (fun _ _ _ matters => matters) (fun _ _ _ _ _ => trivial) trivial
  exact kept.indifferent fun h c matters => matters.not_bestEffort h

theorem Call.Looks.matters {c : Call} (looks : c.Looks) : c.Matters := by
  cases c with
  | leader => cases looks
  | _ => trivial

theorem Call.Waits.matters {c : Call} {job : Job} (waits : c.Waits job) : c.Matters := by
  cases c with
  | leader => cases waits
  | _ => trivial

theorem Call.Prepares.matters {c : Call} {job : Job} (prepares : c.Prepares job) : c.Matters := by
  cases c with
  | leader endpoint request limit => cases request <;> trivial
  | _ => trivial

theorem Call.Copies.matters {c : Call} (copies : c.Copies) : c.Matters := by
  cases c with
  | leader => cases copies
  | _ => trivial

theorem Call.Registers.matters {c : Call} (registers : c.Registers) : c.Matters := by
  cases c with
  | leader endpoint request limit => cases request <;> trivial
  | _ => trivial

theorem Call.Closes.matters {c : Call} {job : Job} (closes : c.Closes job) : c.Matters := by
  cases c with
  | leader => cases closes
  | _ => trivial

namespace Stage
variable {α β : Type}

def Indifferent (Q : α → Journal → History surroundings → Prop) (s : Stage α) (j : Journal)
    (h : History surroundings) : Prop :=
  Program.Indifferent BestEffort (ending Q fun _ _ _ => True) (s.run.run j) h

variable {Q : α → Journal → History surroundings → Prop}
  {R : β → Journal → History surroundings → Prop} {s : Stage α} {j : Journal}
  {h : History surroundings}

theorem Indifferent.bind {f : α → Stage β} (first : s.Indifferent Q j h)
    (rest : ∀ a j h, Q a j h → (f a).Indifferent R j h) : (s >>= f).Indifferent R j h := by
  unfold Indifferent
  rw [ExceptT.run_bind, StateT.run_bind, Program.bind_eq]
  refine Program.Indifferent.bind first ?_
  rintro ⟨fault | a, j⟩ h last
  · exact trivial
  · exact rest a j h last

theorem indifferent_of_uses (u : s.Uses Call.Matters) :
    s.Indifferent (fun _ _ _ => True) j h := by
  refine Program.Indifferent.mono (indifferent_of_matters (u j) h) ?_
  rintro ⟨fault | a, j⟩ h _ <;> exact trivial

theorem indifferent_act {p : Act α}
    (indifferent : Program.Indifferent BestEffort (fun a h => Q a j h) p h) : (act p).Indifferent Q j h := by
  unfold Indifferent
  rw [run_act]
  exact Program.Indifferent.bind indifferent fun a h last => last

theorem indifferent_attempt {p : Act (Except Fault α)}
    (indifferent : Program.Indifferent BestEffort (fun _ _ => True) p h) :
    (attempt p).Indifferent (fun _ _ _ => True) j h := by
  refine (indifferent_act (Q := fun _ _ _ => True) indifferent).bind ?_
  rintro (fault | a) j h _ <;> exact trivial

theorem indifferent_ignored {c : Call}
    (rest : ∀ r, s.Indifferent Q j (h ++ [⟨c, r⟩])) :
    (act (ask c) >>= fun _ => s).Indifferent Q j h :=
  Program.indifferent_call_const _ rest

end Stage

section
variable (setting : Setting) (job : Job) (endpoint : String) {j : Journal}
  {h : History surroundings}

abbrev Anyhow {α : Type} (_ : α) (_ : Journal) (_ : History surroundings) : Prop := True

theorem acquire_indifferent (request : LockRequest) (limit cancelTimeout : Duration) :
    Program.Indifferent BestEffort (fun r h => ∀ guard, r = .ok guard →
      (marks lockMode h).getLast? = some request.mode)
      (Guard.acquire endpoint request limit cancelTimeout) h := by
  refine indifferent_call trivial ?_
  rintro (fault | lockId)
  · exact fun _ => nofun
  · refine indifferent_call trivial ?_
    rintro (fault | grant)
    · change Program.Indifferent _ _ (if fault.isConnectFailure then _ else _) _
      split
      · exact fun _ => nofun
      · exact Program.indifferent_call_const _ fun _ _ => nofun
    · intro guard _
      rw [marks_of_some rfl (m := request.mode) rfl]
      simp

theorem acquireLock_indifferent (mode : LockMode) (ttl : Duration) :
    (acquireLock setting job endpoint mode ttl).Indifferent
      (fun _ _ h => (marks lockMode h).getLast? = some mode) j h := by
  have acquired := acquire_indifferent (h := h) endpoint (lockRequest setting job mode ttl) ttl
    setting.settings.cancelLockTimeout
  refine (Stage.indifferent_act (Q := fun r _ h => ∀ guard, r = .ok guard →
    (marks lockMode h).getLast? = some mode) acquired).bind ?_
  rintro (fault | guard) j h last
  · have looks := (classify_uses setting job fault).mono fun _ => Call.Looks.matters
    exact (Stage.indifferent_of_uses looks).bind fun _ _ _ _ => trivial
  · exact last guard rfl

theorem releaseQuietly_indifferent (guard : Guard) :
    Program.Indifferent BestEffort (fun _ _ => True) guard.releaseQuietly h :=
  Program.indifferent_call_const _ fun _ => trivial

theorem not_bestEffort_release {shard : String} {start : Tick} {budget : Duration}
    {context : Context} {outcome : CatchUpOutcome}
    (soft : (marks lockMode h).getLast? = some .soft) (database : String) (lockId : UInt64)
    (clientId : String) (limit : Duration) :
    ¬BestEffort (h ++ [⟨.catchUp shard start budget context, .ok outcome⟩])
      (.leader endpoint (.cancelLock database lockId clientId) limit) := by
  intro spare
  cases spare with
  | refused last => simp at last
  | failedRound last => simp at last
  | hardLock last =>
    rw [marks_of_none rfl rfl, soft] at last
    cases last

theorem followHeld_indifferent (budget : Duration) (guard : Guard)
    (soft : (marks lockMode h).getLast? = some .soft) :
    (followHeld setting job budget guard).Indifferent Anyhow j h := by
  refine indifferent_call trivial ?_
  rintro (fault | outcome)
  · have looks := (classify_uses setting job fault).mono fun _ => Call.Looks.matters
    have rest := looks.bind fun fault => Stage.uses_throw (α := Bool) fault
    change Stage.Indifferent _ (Stage.act guard.releaseQuietly >>= fun _ =>
      classify setting job fault >>= throw) j _
    exact (Stage.indifferent_act (Q := Anyhow) (releaseQuietly_indifferent guard)).bind
      fun _ _ _ _ => Stage.indifferent_of_uses rest
  · have noted := (Stage.uses_modify fun j =>
      { j with progress := j.progress.advance outcome.tickReached }).bind
        fun _ => Stage.uses_pure (K := Call.Matters) outcome.timedOut
    have release : Program.Indifferent BestEffort (fun _ _ => True) guard.release
        (h ++ [⟨.catchUp job.shard j.progress.lastLogTick budget j.context, .ok outcome⟩]) :=
      ⟨fun spare => absurd spare (not_bestEffort_release _ soft _ _ _ _), fun _ => trivial⟩
    exact (Stage.indifferent_attempt release).bind fun _ _ _ _ => Stage.indifferent_of_uses noted

theorem softRound_indifferent (budget : Duration) :
    (softRound setting job endpoint budget).Indifferent Anyhow j h := by
  have looks := unlessStopping_uses.mono fun _ => Call.Looks.matters
  rw [softRound_eq]
  refine (Stage.indifferent_of_uses looks).bind fun _ j h _ => ?_
  refine (acquireLock_indifferent setting job endpoint .soft _).bind fun guard j h soft => ?_
  exact followHeld_indifferent setting job budget guard soft

theorem softRounds_indifferent (budget : Duration) (rounds : Nat) :
    (softRounds setting job endpoint budget rounds).Indifferent Anyhow j h := by
  induction rounds generalizing j h with
  | zero => exact trivial
  | succ rounds ih =>
    refine (softRound_indifferent setting job endpoint budget).bind fun timedOut j h _ => ?_
    cases timedOut with
    | false => exact trivial
    | true => exact ih

theorem catchUpSoftly_indifferent :
    (catchUpSoftly setting job endpoint).Indifferent Anyhow j h := by
  refine (Stage.indifferent_of_uses (Stage.uses_enter _)).bind fun _ j h _ => ?_
  cases setting.settings.softCatchUpBudget? with
  | none =>
    have stops : (stop .outOfRange : Act Unit).Uses Call.Matters := (uses_stop _).mpr trivial
    exact Stage.indifferent_of_uses (Stage.uses_act stops)
  | some budget => exact softRounds_indifferent setting job endpoint budget _

theorem repairChecksum_indifferent : (repairChecksum setting job endpoint).Indifferent Anyhow j h := by
  refine .bind (Stage.indifferent_of_uses ?marked) fun _ j h _ =>
    .bind (Stage.indifferent_of_uses ?old) fun old j h _ =>
    .bind (Stage.indifferent_of_uses ?new) fun new j h _ => ?anew
  case marked => exact Stage.uses_act ⟨trivial, fun _ => trivial⟩
  case old => exact Stage.uses_attempt ⟨trivial, fun _ => trivial⟩
  case new => exact Stage.uses_attempt ⟨trivial, fun _ => trivial⟩
  case anew =>
    split
    · exact Stage.indifferent_ignored fun _ => trivial
    · exact trivial

theorem concludeHardLock_indifferent (result : Except Fault Unit) :
    (concludeHardLock setting job endpoint result).Indifferent Anyhow j h := by
  rcases result with fault | _
  · refine (Stage.indifferent_of_uses Stage.uses_get).bind fun read j h _ => ?_
    split
    · exact (repairChecksum_indifferent setting job endpoint).bind fun _ _ _ _ => trivial
    · exact trivial
  · exact trivial

theorem catchUpHard_indifferent (syncerId : UInt64) :
    (catchUpHard setting job endpoint syncerId).Indifferent Anyhow j h := by
  refine .bind (Stage.indifferent_of_uses (Stage.uses_enter _)) fun _ j h _ =>
    .bind (acquireLock_indifferent setting job endpoint .hard _) fun guard j h _ =>
    .bind (Stage.indifferent_of_uses (Stage.uses_modify _)) fun _ j h _ =>
    .bind (Q := Anyhow) ?registered fun result j h _ =>
    .bind (Q := Anyhow) ?released fun _ j h _ => ?concluded
  case registered =>
    have registers := (finalizeAndRegister_uses setting job endpoint syncerId guard.lockId).mono
      fun _ => Call.Registers.matters
    exact Stage.indifferent_of_uses (Stage.uses_result registers)
  case released => exact Stage.indifferent_act (releaseQuietly_indifferent guard)
  case concluded => exact concludeHardLock_indifferent setting job endpoint result

theorem work_indifferent : (work setting job).Indifferent Anyhow j h := by
  have looks := unlessStopping_uses.mono fun _ => Call.Looks.matters
  refine .bind (Stage.indifferent_of_uses ?valid) fun _ j h _ =>
    .bind (Stage.indifferent_of_uses (Stage.uses_enter _)) fun _ j h _ =>
    .bind (Stage.indifferent_of_uses ?delayed) fun _ j h _ =>
    .bind (Stage.indifferent_of_uses (Stage.uses_enter _)) fun _ j h _ =>
    .bind (Stage.indifferent_of_uses ?waited) fun _ j h _ =>
    .bind (Stage.indifferent_of_uses ?prepared) fun endpoint j h _ =>
    .bind (Stage.indifferent_of_uses ?copied) fun syncerId j h _ =>
    .bind (catchUpSoftly_indifferent setting job endpoint) fun _ j h _ =>
    .bind (Stage.indifferent_of_uses looks) fun _ j h _ =>
    catchUpHard_indifferent setting job endpoint syncerId
  case valid => exact Stage.uses_attempt trivial
  case delayed =>
    exact Stage.uses_attempt ((delayAfterFailures_uses setting job).mono fun _ => Call.Waits.matters)
  case waited =>
    exact Stage.uses_attempt ((waitForLeader_uses setting job _).mono fun _ => Call.Looks.matters)
  case prepared => exact (prepare_uses setting job).mono fun _ => Call.Prepares.matters
  case copied => exact (copyShard_uses setting job endpoint).mono fun _ => Call.Copies.matters

theorem run_indifferent :
    Program.Indifferent BestEffort (fun _ _ => True) (run setting job) [] := by
  simp only [run, ask_eq, Program.bind_eq, Program.bind_call, Program.bind_done]
  refine indifferent_call trivial fun began => .bind (work_indifferent setting job) ?_
  rintro ⟨result, j⟩ h _
  have closes := (close_uses setting job (faultOf result)).mono fun _ => Call.Closes.matters
  refine .bind (indifferent_of_matters closes h) fun _ h _ => ?_
  exact indifferent_call trivial fun ended => trivial

/-- Worlds that differ only in the answers to best-effort calls see the same calls of an attempt in
the same states, and get the same report and are left in the same state. -/
theorem run_same_but_best_effort {σ : Type} {w w' : World surroundings σ} {s : σ}
    (alike : (run setting job).AlikeBut BestEffort w w' [] s) :
    (run setting job).calls w s = (run setting job).calls w' s ∧
      (run setting job).play w s = (run setting job).play w' s :=
  (run_indifferent setting job).same alike

end

def politeWorld : World surroundings (History surroundings) :=
  Program.noting fun h c => (refusing (.ok 10) h c).or (calm c)

def rebuff (h : History surroundings) : (c : Call) → Option c.Reply
  | .leader _ (.cancelLock ..) _ =>
    if (marks lockMode h).getLast? = some .hard then some (.error (.network "gone")) else none
  | .leader _ (.recalculateCount ..) _ => some (.error (.network "gone"))
  | _ => none

def rudeWorld : World surroundings (History surroundings) := fun c h =>
  ((politeWorld c h).1, (politeWorld c h).2.map fun r => (rebuff h c).getD r)

theorem bestEffort_of_rebuff {h : History surroundings} {c : Call}
    (rebuffed : (rebuff h c).isSome = true) : BestEffort h c := by
  unfold rebuff at rebuffed
  split at rebuffed
  · split at rebuffed
    · exact .hardLock ‹_› ..
    · cases rebuffed
  · exact .recalculation ..
  · cases rebuffed

theorem politeWorld_alikeBut_rudeWorld {α : Type} (p : Act α) (h : History surroundings) :
    p.AlikeBut BestEffort politeWorld rudeWorld h h := by
  refine Program.alikeBut_of_seen id (fun c h r => Program.noting_eq) (fun _ _ => rfl)
    (fun _ _ => Option.isSome_map.symm) fun c h spared => ?_
  have unrebuffed : rebuff h c = none := by
    cases rebuffed : rebuff h c with
    | none => rfl
    | some r => exact absurd (bestEffort_of_rebuff (by simp [rebuffed])) spared
  simp [rudeWorld, unrebuffed]

theorem rudeWorld_run_same :
    (run calmSetting calmJob).AlikeBut BestEffort politeWorld rudeWorld [] [] ∧
    (((run calmSetting calmJob).calls politeWorld []).filter fun (h, c) =>
      (rebuff h c).isSome).length = 2 ∧
    (run calmSetting calmJob).calls politeWorld [] = (run calmSetting calmJob).calls rudeWorld [] ∧
    (run calmSetting calmJob).play politeWorld [] = (run calmSetting calmJob).play rudeWorld [] := by
  have alike := politeWorld_alikeBut_rudeWorld (run calmSetting calmJob) []
  have same := run_same_but_best_effort calmSetting calmJob alike
  exact ⟨alike, by decide +kernel, same⟩

end Attempt
end FollowerSync
