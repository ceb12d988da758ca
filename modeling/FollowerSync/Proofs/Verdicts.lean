import Mathlib.Data.List.Basic
import FollowerSync.Proofs.Books

/-!
# Verdicts on the count of documents

A registration carries the count of the documents here, and the leader may find it wrong. What a
run finds out about its count, and what it does about it, is kept as a list of findings; a run that
ends has one of few such lists, which also says with what fault it ends.
-/

set_option autoImplicit false

namespace FollowerSync.Attempt
open Maintenance Leader

inductive Finding where
  | counted (answer : Except Fault UInt64)
  | finalized
  | judged (answer : Except Fault Unit)
  | flagged
  | recounted (answer : Except Fault UInt64)
  | recalculated
  deriving DecidableEq

def finding : Event surroundings → Option Finding
  | ⟨.documentCount, answer⟩ => some (.counted answer)
  | ⟨.finalize .., .ok _⟩ => some .finalized
  | ⟨.leader _ (.addFollower _) _, answer⟩ => some (.judged answer)
  | ⟨.upkeep .countWrongChecksum, _⟩ => some .flagged
  | ⟨.recountDocuments, answer⟩ => some (.recounted answer)
  | ⟨.leader _ (.recalculateCount ..) _, _⟩ => some .recalculated
  | _ => none

def findings (h : History surroundings) : List Finding := marks finding h

def Call.isRepair : Call → Bool
  | .upkeep .countWrongChecksum | .recountDocuments | .leader _ (.recalculateCount ..) _ => true
  | _ => false

def Refused (fault : Fault) (h : History surroundings) : Prop :=
  ∃ endpoint request limit, ⟨.leader endpoint (.addFollower request) limit, .error fault⟩ ∈ h

def Miscounted (fault : Fault) (h : History surroundings) : Prop :=
  ∃ before collection start bound context after,
    h = before ++ ⟨.finalize collection start bound context, .ok ()⟩ ::
      ⟨.documentCount, .error fault⟩ :: after

def Met (fault : Fault) (h : History surroundings) : Prop := Refused fault h ∨ Miscounted fault h

def RepairLaw (h : History surroundings) (c : Call) : Prop :=
  c.isRepair = true → ∃ fault, fault.code = .wrongChecksum ∧ Met fault h

def Opening (ms : List Finding) : Prop := ∀ m ∈ ms, ∃ answer, m = .counted answer

/-- The findings of a run that meets this fault when it registers. -/
inductive Verdict (fault : Fault) : List Finding → Prop
  | uncounted {opening : List Finding} (counts : Opening opening) :
      Verdict fault (opening ++ [.finalized, .counted (.error fault)])
  | refused {opening : List Finding} {count : UInt64} (counts : Opening opening) :
      Verdict fault (opening ++ [.finalized, .counted (.ok count), .judged (.error fault)])

/-- The findings of a repair after this mismatch, and the fault that the attempt ends with. -/
inductive Repair (mismatch : Fault) : List Finding → Fault → Prop
  | uncounted (fault : Fault) : Repair mismatch [.flagged, .counted (.error fault)] fault
  | unrecounted (old : UInt64) (fault : Fault) :
      Repair mismatch [.flagged, .counted (.ok old), .recounted (.error fault)] fault
  | changed {old new : UInt64} (changes : old ≠ new) :
      Repair mismatch [.flagged, .counted (.ok old), .recounted (.ok new)] mismatch
  | unchanged (count : UInt64) : Repair mismatch
      [.flagged, .counted (.ok count), .recounted (.ok count), .recalculated] mismatch

/-- What a run does about the fault that it meets, and the fault that it ends with. -/
def Concluded (fault : Fault) (tail : List Finding) (last : Fault) : Prop :=
  if fault.code = .wrongChecksum then Repair (mismatch fault) tail last
  else tail = [] ∧ last = fault

/-- The findings of a run from its beginning to its end, and the fault that it ends with. -/
inductive Course : List Finding → Option Fault → Prop
  | early {opening : List Finding} {fault : Fault} (counts : Opening opening) :
      Course opening (some fault)
  | judged {ms tail : List Finding} {fault last : Fault} (verdict : Verdict fault ms)
      (concluded : Concluded fault tail last) : Course (ms ++ tail) (some last)
  | accepted {opening : List Finding} {count : UInt64} (counts : Opening opening) :
      Course (opening ++ [.finalized, .counted (.ok count), .judged (.ok ())]) none

section
variable {fault last : Fault} {ms tail : List Finding} {h : History surroundings}

theorem Met.append (met : Met fault h) (later : History surroundings) :
    Met fault (h ++ later) := by
  rcases met with ⟨endpoint, request, limit, refused⟩ |
    ⟨before, collection, start, bound, context, after, rfl⟩
  · exact .inl ⟨endpoint, request, limit, List.mem_append_left later refused⟩
  · refine .inr ⟨before, collection, start, bound, context, after ++ later, ?_⟩
    simp

theorem repair_lawful (wrong : fault.code = .wrongChecksum) (met : Met fault h) (c : Call) :
    RepairLaw h c := fun _ => ⟨fault, wrong, met⟩

theorem other_lawful {c : Call} (other : c.isRepair = false) : RepairLaw h c := by
  intro repairs
  rw [other] at repairs
  cases repairs

theorem Concluded.of_ne (other : fault.code ≠ .wrongChecksum) : Concluded fault [] fault := by
  unfold Concluded
  rw [if_neg other]
  exact ⟨rfl, rfl⟩

theorem Concluded.of_repair (wrong : fault.code = .wrongChecksum)
    (repair : Repair (mismatch fault) tail last) : Concluded fault tail last := by
  unfold Concluded
  rwa [if_pos wrong]

theorem Concluded.repair (concluded : Concluded fault tail last)
    (wrong : fault.code = .wrongChecksum) : Repair (mismatch fault) tail last := by
  unfold Concluded at concluded
  rwa [if_pos wrong] at concluded

theorem Concluded.unjudged (concluded : Concluded fault tail last) :
    .finalized ∉ tail ∧ ∀ answer, .judged answer ∉ tail := by
  unfold Concluded at concluded
  split at concluded
  · cases concluded <;> simp
  · simp [concluded.1]

theorem Opening.unjudged (counts : Opening ms) :
    .finalized ∉ ms ∧ (∀ answer, .judged answer ∉ ms) ∧ .flagged ∉ ms := by
  refine ⟨fun mem => ?_, fun answer mem => ?_, fun mem => ?_⟩ <;>
    · obtain ⟨_, same⟩ := counts _ mem
      cases same

end

section
variable {fault : Fault} {last : Option Fault} {ms before after : List Finding}

theorem Course.refused (course : Course ms last)
    (split : ms = before ++ .judged (.error fault) :: after) :
    .flagged ∉ before ∧ ∃ final, last = some final ∧ Concluded fault after final := by
  have judged : .judged (.error fault) ∈ ms := by simp [split]
  cases course with
  | early counts => exact absurd judged (counts.unjudged.2.1 _)
  | accepted counts =>
    have unjudged := counts.unjudged.2.1 (.error fault)
    simp [unjudged] at judged
  | @judged _ tail met final verdict concluded =>
    have silent := concluded.unjudged.2 (.error fault)
    cases verdict with
    | @uncounted opening counts =>
      have unjudged := counts.unjudged.2.1 (.error fault)
      simp [unjudged, silent] at judged
    | @refused opening count counts =>
      have unjudged := counts.unjudged.2.1 (.error fault)
      have front : .judged (.error fault) ∉ opening ++ [.finalized, .counted (.ok count)] := by
        simp [unjudged]
      have same : (opening ++ [.finalized, .counted (.ok count)]) ++ .judged (.error met) :: tail =
          before ++ .judged (.error fault) :: after := by simpa using split
      obtain ⟨rfl, judgement, rfl⟩ := (List.append_cons_inj_of_notMem front silent).mp same
      cases judgement
      exact ⟨by simp [counts.unjudged.2.2], final, rfl, concluded⟩

theorem Course.miscounted (course : Course ms last)
    (split : ms = before ++ .finalized :: .counted (.error fault) :: after) :
    (∀ answer, .judged answer ∉ ms) ∧ ∃ final, last = some final ∧ Concluded fault after final := by
  have finalized : .finalized ∈ ms := by simp [split]
  cases course with
  | early counts => exact absurd finalized counts.unjudged.1
  | @accepted opening count counts =>
    have rest : Finding.finalized ∉ [.counted (.ok count), .judged (.ok ())] := by simp
    have same := (List.append_cons_inj_of_notMem counts.unjudged.1 rest).mp split
    cases same.2.2
  | @judged _ tail met final verdict concluded =>
    obtain ⟨unfinished, silent⟩ := concluded.unjudged
    cases verdict with
    | @uncounted opening counts =>
      have rest : .finalized ∉ .counted (.error met) :: tail := by simp [unfinished]
      have same : opening ++ .finalized :: .counted (.error met) :: tail =
          before ++ .finalized :: .counted (.error fault) :: after := by simpa using split
      obtain ⟨rfl, -, counted⟩ :=
        (List.append_cons_inj_of_notMem counts.unjudged.1 rest).mp same
      cases counted
      refine ⟨fun answer => ?_, final, rfl, concluded⟩
      simp [counts.unjudged.2.1, silent]
    | @refused opening count counts =>
      have rest : .finalized ∉ .counted (.ok count) :: .judged (.error met) :: tail := by
        simp [unfinished]
      have same : opening ++ .finalized :: .counted (.ok count) :: .judged (.error met) :: tail =
          before ++ .finalized :: .counted (.error fault) :: after := by simpa using split
      -- The leader is asked only after a count that succeeded.
      cases ((List.append_cons_inj_of_notMem counts.unjudged.1 rest).mp same).2.2

end

def Call.Opens (c : Call) : Prop :=
  c.isRepair = false ∧ ∀ r m, finding ⟨c, r⟩ = some m → ∃ answer, m = .counted answer

def Call.Unfound (c : Call) : Prop := c.isRepair = false ∧ ∀ r, finding ⟨c, r⟩ = none

theorem Call.Unfound.opens {c : Call} (unfound : c.Unfound) : c.Opens := by
  refine ⟨unfound.1, fun r m found => ?_⟩
  rw [unfound.2 r] at found
  cases found

theorem unfound_of_looks (c : Call) (looks : c.Looks) : c.Unfound := by
  cases c <;> first | exact ⟨rfl, fun _ => rfl⟩ | cases looks

theorem unfound_of_waits {job : Job} (c : Call) (waits : c.Waits job) : c.Unfound := by
  cases c with
  | upkeep op =>
    obtain rfl : op = .failures job.key := waits
    exact ⟨rfl, fun _ => rfl⟩
  | _ => first | exact ⟨rfl, fun _ => rfl⟩ | cases waits

theorem unfound_of_copies (c : Call) (copies : c.Copies) : c.Unfound := by
  cases c <;> first | exact ⟨rfl, fun _ => rfl⟩ | cases copies

theorem unfound_of_follows (c : Call) (follows : c.Follows) : c.Unfound := by
  cases c with
  | leader endpoint request limit =>
    cases request <;> first | exact ⟨rfl, fun _ => rfl⟩ | cases follows
  | _ => first | exact ⟨rfl, fun _ => rfl⟩ | cases follows

theorem unfound_of_closes {job : Job} (c : Call) (closes : c.Closes job) : c.Unfound := by
  cases c with
  | upkeep op =>
    have closing : op ∈ _ := closes
    simp only [List.mem_cons, List.not_mem_nil, or_false] at closing
    rcases closing with rfl | rfl | rfl | rfl | rfl <;> exact ⟨rfl, fun _ => rfl⟩
  | _ => first | exact ⟨rfl, fun _ => rfl⟩ | cases closes

theorem opens_of_prepares {job : Job} (c : Call) (prepares : c.Prepares job) : c.Opens := by
  cases c with
  | documentCount =>
    refine ⟨rfl, fun answer m found => ⟨answer, ?_⟩⟩
    exact (Option.some.inj found).symm
  | upkeep op =>
    obtain rfl : op = .requeue job .slow := prepares
    exact Call.Unfound.opens ⟨rfl, fun _ => rfl⟩
  | leader endpoint request limit =>
    cases request <;> first | exact Call.Unfound.opens ⟨rfl, fun _ => rfl⟩ | cases prepares
  | _ => first | exact Call.Unfound.opens ⟨rfl, fun _ => rfl⟩ | cases prepares

theorem findings_append (h later : History surroundings) :
    findings (h ++ later) = findings h ++ findings later := marks_append h later

theorem opens_stable : Stage.Stable RepairLaw Call.Opens fun _ h => Opening (findings h) where
  allowed := fun _ _ _ _ opens => other_lawful opens.1
  kept := by
    intro _ h c r counts opens
    rw [findings_append]
    refine List.forall_mem_append.mpr ⟨counts, fun m found => ?_⟩
    obtain ⟨e, mem, found⟩ := mem_marks.mp found
    obtain rfl := List.mem_singleton.mp mem
    exact opens.2 r m found

section
variable (setting : Setting) (job : Job) (endpoint : String)

section
variable {j : Journal} {h : History surroundings} {ms : List Finding} {fault : Fault}

theorem findings_of_none {e : Event surroundings} (start : findings h = ms)
    (unfound : finding e = none) : findings (h ++ [e]) = ms := marks_of_none start unfound

theorem findings_of_some {e : Event surroundings} {m : Finding} (start : findings h = ms)
    (found : finding e = some m) : findings (h ++ [e]) = ms ++ [m] := marks_of_some start found

theorem findings_of_more {e : Event surroundings} {m : Finding} {tail : List Finding}
    (start : findings h = ms ++ tail) (found : finding e = some m) :
    findings (h ++ [e]) = ms ++ (tail ++ [m]) := by
  rw [findings_of_some start found, List.append_assoc]

def Poised (j : Journal) (h : History surroundings) : Prop :=
  j.phase = .hardLockFinalize ∧ Opening (findings h)

theorem poised_stable : Stage.Stable RepairLaw Call.Opens Poised where
  allowed := fun _ _ _ _ opens => other_lawful opens.1
  kept := by
    rintro j h c r ⟨phase, counts⟩ opens
    exact ⟨phase, opens_stable.kept j h c r counts opens⟩

theorem looks_poised : Stage.Stable RepairLaw Call.Looks Poised :=
  poised_stable.mono fun c looks => (unfound_of_looks c looks).opens

def Stopped (fault : Fault) (j : Journal) (h : History surroundings) : Prop :=
  (j.phase ≠ .addFollower ∧ Opening (findings h)) ∨
    (j.phase = .addFollower ∧ Verdict fault (findings h) ∧ Met fault h)

theorem Poised.stopped (poised : Poised j h) (fault : Fault) : Stopped fault j h := by
  refine .inl ⟨fun phase => ?_, poised.2⟩
  rw [poised.1] at phase
  cases phase

theorem adoptTerm_poised : (adoptTerm job).Preserves RepairLaw Poised := by
  refine .bind Stage.preserves_get fun j => .bind ?_ fun _ => ?_
  · exact Stage.preserves_attempt poised_stable ⟨Call.Unfound.opens ⟨rfl, fun _ => rfl⟩,
      fun _ => trivial⟩
  · exact Stage.preserves_act poised_stable ⟨Call.Unfound.opens ⟨rfl, fun _ => rfl⟩,
      fun _ => trivial⟩

def Finalized (j : Journal) (h : History surroundings) : Prop :=
  ∃ before collection start bound context, Poised j before ∧
    h = before ++ [⟨.finalize collection start bound context, .ok ()⟩]

theorem finalizeLog_finalizes (poised : Poised j h) :
    (finalizeLog setting job).Keeps RepairLaw (fun _ => Finalized) (fun _ => Poised) j h := by
  simp only [finalizeLog, Stage.keeps_bind, Stage.keeps_get]
  refine keeps_classified setting job looks_poised ⟨other_lawful rfl, ?_⟩
  rintro (fault | ⟨⟩)
  · have unfinished := findings_of_none rfl (h := h) (e := ⟨.finalize job.shard
      j.progress.lastLogTick j.progress.upperBound j.context, .error fault⟩) rfl
    exact ⟨poised.1, unfinished.symm ▸ poised.2⟩
  · exact ⟨h, _, _, _, _, poised, rfl⟩

theorem register_verdict {syncerId lockId : UInt64} (finalized : Finalized j h) :
    (register setting job endpoint syncerId lockId).Keeps RepairLaw
      (fun _ _ h => Course (findings h) none) Stopped j h := by
  obtain ⟨before, collection, start, bound, context, ⟨_, counts⟩, rfl⟩ := finalized
  have ended := findings_of_some rfl (h := before)
    (e := ⟨.finalize collection start bound context, .ok ()⟩) rfl
  simp only [register, ask_eq, Stage.keeps_bind, Stage.keeps_enter, Stage.keeps_attempt,
    Stage.keeps_modify, Program.keeps_call, Program.keeps_done]
  refine ⟨other_lawful rfl, ?_⟩
  rintro (fault | count)
  · have uncounted := findings_of_more ended (e := ⟨.documentCount, .error fault⟩) rfl
    refine .inr ⟨rfl, uncounted ▸ .uncounted counts, .inr ?_⟩
    exact ⟨before, collection, start, bound, context, [], by simp⟩
  · have counted := findings_of_more ended (e := ⟨.documentCount, .ok count⟩) rfl
    refine ⟨other_lawful rfl, ?_⟩
    rintro (fault | ⟨⟩)
    · have refused := findings_of_more counted (e := ⟨.leader endpoint (.addFollower
        (addFollowerRequest setting job count syncerId lockId))
        setting.settings.addFollowerTimeout, .error fault⟩) rfl
      refine .inr ⟨rfl, refused ▸ .refused counts, .inl ?_⟩
      exact ⟨_, _, _, List.mem_append_right _ (List.mem_singleton_self _)⟩
    · have accepted := findings_of_more counted (e := ⟨.leader endpoint (.addFollower
        (addFollowerRequest setting job count syncerId lockId))
        setting.settings.addFollowerTimeout, .ok ()⟩) rfl
      change Course (findings _) none
      rw [accepted]
      exact .accepted counts

theorem finalizeAndRegister_verdict {syncerId lockId : UInt64} (poised : Poised j h) :
    (finalizeAndRegister setting job endpoint syncerId lockId).Keeps RepairLaw
      (fun _ _ h => Course (findings h) none) Stopped j h := by
  have stopped (fault : Fault) (j : Journal) (h : History surroundings) (poised : Poised j h) :=
    poised.stopped fault
  unfold finalizeAndRegister
  rw [Stage.keeps_bind]
  refine (adoptTerm_poised job j h poised).mono (fun _ j h poised => ?_) stopped
  rw [Stage.keeps_bind]
  refine (finalizeLog_finalizes setting job poised).mono (fun _ j h finalized => ?_) stopped
  exact register_verdict setting job endpoint finalized

theorem repairChecksum_repairs (start : findings h = ms) (wrong : fault.code = .wrongChecksum)
    (met : Met fault h) :
    (repairChecksum setting job endpoint).Keeps RepairLaw
      (fun _ _ h => ∃ tail, findings h = ms ++ tail ∧
        Repair (mismatch fault) tail (mismatch fault))
      (fun last _ h => ∃ tail, findings h = ms ++ tail ∧ Repair (mismatch fault) tail last)
      j h := by
  have lawful {h : History surroundings} (met : Met fault h) (c : Call) : RepairLaw h c :=
    repair_lawful wrong met c
  simp only [repairChecksum, ask_eq, Stage.keeps_bind, Stage.keeps_act, Stage.keeps_attempt,
    Stage.keeps_ite, Stage.keeps_pure, Program.keeps_call, Program.keeps_done]
  have flagged := findings_of_some start (e := ⟨.upkeep .countWrongChecksum, ()⟩) rfl
  refine ⟨lawful met _, fun _ => ⟨lawful (met.append _) _, ?_⟩⟩
  rintro (fault | old)
  · exact ⟨_, findings_of_more flagged rfl, .uncounted fault⟩
  · have counted := findings_of_more flagged (e := ⟨.documentCount, .ok old⟩) rfl
    refine ⟨lawful ((met.append _).append _) _, ?_⟩
    rintro (fault | new)
    · exact ⟨_, findings_of_more counted rfl, .unrecounted old fault⟩
    · have recounted := findings_of_more counted (e := ⟨.recountDocuments, .ok new⟩) rfl
      refine ⟨?_, fun changes => ⟨_, recounted, .changed changes⟩⟩
      rintro rfl
      refine ⟨lawful (((met.append _).append _).append _) _, fun answer => ?_⟩
      exact ⟨_, findings_of_more recounted rfl, .unchanged old⟩

theorem unfound_stable (P : List Finding → Prop) :
    Stage.Stable RepairLaw Call.Unfound fun _ h => P (findings h) :=
  .of_marks P (fun _ _ unfound => other_lawful unfound.1) fun _ unfound => unfound.2

theorem stopped_stable (fault : Fault) :
    Stage.Stable RepairLaw Call.Unfound (Stopped fault) where
  allowed := fun _ _ _ _ unfound => other_lawful unfound.1
  kept := by
    intro j h c r stopped unfound
    have same := findings_of_none (h := h) rfl (unfound.2 r)
    unfold Stopped
    rw [same]
    refine stopped.imp_right ?_
    rintro ⟨phase, verdict, met⟩
    exact ⟨phase, verdict, met.append _⟩

theorem concludeHardLock_concludes {Q : Unit → Journal → History surroundings → Prop}
    (stopped : Stopped fault j h) :
    (concludeHardLock setting job endpoint (.error fault)).Keeps RepairLaw Q
      (fun last _ h => Course (findings h) (some last)) j h := by
  simp only [concludeHardLock, Stage.keeps_bind, Stage.keeps_get, Stage.keeps_ite,
    Stage.keeps_throw]
  rcases stopped with ⟨phase, counts⟩ | ⟨phase, verdict, met⟩
  · exact ⟨fun wrong => absurd wrong.1 phase, fun _ => .early counts⟩
  · refine ⟨fun repairs => ?_, fun right => ?_⟩
    · have wrong := repairs.2
      refine (repairChecksum_repairs setting job endpoint rfl wrong met).mono ?_ ?_
      · rintro _ j h ⟨tail, same, repair⟩
        exact same ▸ .judged verdict (.of_repair wrong repair)
      · rintro last j h ⟨tail, same, repair⟩
        exact same ▸ .judged verdict (.of_repair wrong repair)
    · have other : fault.code ≠ .wrongChecksum := fun wrong => right ⟨phase, wrong⟩
      have judged := Course.judged verdict (.of_ne other)
      rwa [List.append_nil] at judged

theorem acquireLock_poised {ttl : Duration} (poised : Poised j h) :
    (acquireLock setting job endpoint .hard ttl).Keeps RepairLaw (fun _ => Poised)
      (fun _ => Poised) j h := by
  have stable := poised_stable.mono fun c follows => (unfound_of_follows c follows).opens
  exact classified_preserves setting job stable (fun _ => Call.Looks.follows) (acquire_uses ..) j h
    poised

theorem catchUpHard_concludes {syncerId : UInt64} (counts : Opening (findings h)) :
    (catchUpHard setting job endpoint syncerId).Keeps RepairLaw
      (fun _ _ h => Course (findings h) none) (fun fault _ h => Course (findings h) (some fault))
      j h := by
  simp only [catchUpHard, Stage.keeps_bind, Stage.keeps_enter, Stage.keeps_modify,
    Stage.keeps_result, Stage.keeps_act]
  have poised : Poised { j with phase := .hardLockFinalize } h := ⟨rfl, counts⟩
  refine (acquireLock_poised setting job endpoint poised).mono ?_ fun _ _ _ poised =>
    .early poised.2
  intro guard j h poised
  have released := (releaseQuietly_uses guard).mono unfound_of_follows
  have held : Poised
      { j with
        term := guard.grant.term
        progress := { j.progress with upperBound := guard.grant.lastLogTick } } h := poised
  refine (finalizeAndRegister_verdict setting job endpoint held).mono ?_ ?_
  · intro _ j h accepted
    exact (unfound_stable fun ms => Course ms none).keeps (j := j) released accepted
  · intro fault j h stopped
    refine ((stopped_stable fault).keeps released stopped).mono fun _ h stopped => ?_
    exact concludeHardLock_concludes setting job endpoint stopped

theorem work_concludes (start : findings h = []) :
    (work setting job).Keeps RepairLaw (fun _ _ h => Course (findings h) none)
      (fun fault _ h => Course (findings h) (some fault)) j h := by
  have counts : Opening (findings h) := by simp [start, Opening]
  have early (fault : Fault) (j : Journal) (h : History surroundings)
      (counts : Opening (findings h)) : Course (findings h) (some fault) := .early counts
  have unfound := opens_stable.mono fun c => Call.Unfound.opens
  have stoodBy := standBy_preserves setting job (unfound.mono unfound_of_waits)
    (unfound.mono unfound_of_looks) (fun _ _ _ => id) j h counts
  rw [work_eq, Stage.keeps_bind]
  refine stoodBy.mono (fun _ j h counts => ?_) early
  have prepared := (prepare_uses setting job).mono opens_of_prepares
  refine prepared.andThen opens_stable counts early fun endpoint j h counts => ?_
  have copied := (copyShard_uses setting job endpoint).mono unfound_of_copies
  refine copied.andThen unfound counts early fun syncerId j h counts => ?_
  have followed := (catchUpSoftly_uses setting job endpoint).mono unfound_of_follows
  refine followed.andThen unfound counts early fun _ j h counts => ?_
  have stopping := unlessStopping_uses.mono unfound_of_looks
  refine stopping.andThen unfound counts early fun _ j h counts => ?_
  exact catchUpHard_concludes setting job endpoint counts

theorem run_keeps_repairLaw :
    (run setting job).Keeps RepairLaw (fun report h => Course (findings h) report.fault) [] := by
  have closing (c : Call) (closes : c.Closes job) := unfound_of_closes c closes
  refine keeps_run_of_marks (P := fun last ms => Course ms last) setting job
    (fun _ c closes => other_lawful (closing c closes).1) (fun c closes => (closing c closes).2) ?_
  exact fun h start => work_concludes setting job start

end

end

end FollowerSync.Attempt
