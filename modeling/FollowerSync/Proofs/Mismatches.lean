import FollowerSync.Proofs.Verdicts

set_option autoImplicit false

namespace FollowerSync.Attempt
open Maintenance Leader

def CountFails (fault : Fault) (h : History surroundings) : Prop :=
  ⟨.documentCount, .error fault⟩ ∈ h ∨ ⟨.recountDocuments, .error fault⟩ ∈ h

def Mismatching (fault : Fault) : Prop := ∃ reason, fault = .checksumMismatch reason

section
variable {h : History surroundings} {fault last : Fault} {tail : List Finding}

theorem mem_findings_counted {answer : Except Fault UInt64} :
    .counted answer ∈ findings h ↔ ⟨.documentCount, answer⟩ ∈ h := by
  constructor
  · intro mem
    obtain ⟨e, mem, found⟩ := mem_marks.mp mem
    unfold finding at found
    split at found <;> simp_all
  · exact fun mem => mem_marks.mpr ⟨_, mem, rfl⟩

theorem mem_findings_recounted {answer : Except Fault UInt64} :
    .recounted answer ∈ findings h ↔ ⟨.recountDocuments, answer⟩ ∈ h := by
  constructor
  · intro mem
    obtain ⟨e, mem, found⟩ := mem_marks.mp mem
    unfold finding at found
    split at found <;> simp_all
  · exact fun mem => mem_marks.mpr ⟨_, mem, rfl⟩

theorem refused_iff : Refused fault h ↔ .judged (.error fault) ∈ findings h := by
  constructor
  · intro refused
    obtain ⟨endpoint, request, limit, mem⟩ := refused
    exact mem_marks.mpr ⟨_, mem, rfl⟩
  · intro mem
    obtain ⟨e, mem, found⟩ := mem_marks.mp mem
    unfold finding at found
    split at found <;> simp_all
    subst found
    exact ⟨_, _, _, mem⟩

theorem flagged_iff (e : Event surroundings) :
    finding e = some .flagged ↔ Call.operation e.call = some .countWrongChecksum := by
  obtain ⟨c, r⟩ := e
  cases c with
  | upkeep op => cases op <;> simp [finding, Call.operation]
  | leader endpoint request limit => cases request <;> simp [finding, Call.operation]
  | finalize => rcases r with fault | _ <;> simp [finding, Call.operation]
  | _ => simp [finding, Call.operation]

theorem repair_of_flagged (flagged : .flagged ∈ findings h) :
    ∃ e ∈ h, Call.isRepair e.call = true := by
  obtain ⟨⟨c, r⟩, mem, found⟩ := mem_marks.mp flagged
  have called := (flagged_iff ⟨c, r⟩).mp found
  cases c with
  | upkeep op =>
    cases called
    exact ⟨_, mem, rfl⟩
  | _ => cases called

theorem count_upkeeps (h : History surroundings) :
    (upkeeps h).count .countWrongChecksum = (findings h).count .flagged := by
  unfold upkeeps findings marks
  rw [List.count_filterMap, List.count_filterMap]
  refine List.countP_congr fun e _ => ?_
  rw [beq_iff_eq, beq_iff_eq, flagged_iff]

theorem countFails_iff : CountFails fault h ↔
    .counted (.error fault) ∈ findings h ∨ .recounted (.error fault) ∈ findings h := by
  rw [mem_findings_counted, mem_findings_recounted, CountFails]

theorem mismatching_mismatch (fault : Fault) : Mismatching (mismatch fault) := by
  cases fault <;> exact ⟨_, rfl⟩

theorem Repair.count_flagged {m : Fault} (repair : Repair m tail last) :
    tail.count .flagged = 1 := by
  cases repair <;> simp

theorem Repair.last_eq {m : Fault} (repair : Repair m tail last) :
    (∀ f, .counted (.error f) ∈ tail ∨ .recounted (.error f) ∈ tail → last = f) ∧
      ((∀ f, ¬(.counted (.error f) ∈ tail ∨ .recounted (.error f) ∈ tail)) → last = m) := by
  cases repair <;> simp

end

section
variable (setting : Setting) (job : Job)

theorem repair_of_runs {es before after : History surroundings} {report : Report}
    {endpoint : String} {request : AddFollowerRequest} {limit : Duration} {fault : Fault}
    (runs : Runs (run setting job) es report)
    (refused : es =
      before ++ ⟨.leader endpoint (.addFollower request) limit, .error fault⟩ :: after)
    (wrong : fault.code = .wrongChecksum) :
    (findings es).count .flagged = 1 ∧ ∃ last, report.fault = some last ∧
      Repair (mismatch fault) (findings after) last := by
  have course : Course (findings es) report.fault := (run_keeps_repairLaw setting job).ended runs
  have split : findings es = findings before ++ .judged (.error fault) :: findings after := by
    subst refused
    exact findings_append before _
  obtain ⟨unflagged, last, ended, concluded⟩ := course.refused split
  have repair := concluded.repair wrong
  refine ⟨?_, last, ended, repair⟩
  have never := List.count_eq_zero_of_not_mem unflagged
  simp [split, never, repair.count_flagged]

/-- A mismatch of the counts is flagged once. It is what the attempt reports, and it counts against
the shard, unless a count of the documents here fails afterwards with a fault of another kind. -/
theorem run_reports_mismatch_iff {es before after : History surroundings} {report : Report}
    {endpoint : String} {request : AddFollowerRequest} {limit : Duration} {fault : Fault}
    (store : Store) (runs : Runs (run setting job) es report)
    (refused : es =
      before ++ ⟨.leader endpoint (.addFollower request) limit, .error fault⟩ :: after)
    (wrong : fault.code = .wrongChecksum) :
    let t := store.afterAll (upkeeps es)
    t.wrongChecksums = store.wrongChecksums + 1 ∧
      (((∃ last, report.fault = some last ∧ Mismatching last) ∧
        t.failures job.key = store.failures job.key + 1) ↔
          ∀ f, CountFails f after → Mismatching f) := by
  intro t
  obtain ⟨flagged, last, ended, repair⟩ := repair_of_runs setting job runs refused wrong
  obtain ⟨interrupted, finished⟩ := repair.last_eq
  simp only [← countFails_iff] at interrupted finished
  have booked := (booked_of_runs setting job runs store).counted last ended
  constructor
  · rw [wrongChecksums_afterAll, count_upkeeps, flagged]
  · constructor
    · rintro ⟨⟨_, same, mismatching⟩, _⟩ f fails
      rw [ended] at same
      cases same
      exact interrupted f fails ▸ mismatching
    · intro mismatching
      -- Nothing but a failing count comes between the mismatch and the report.
      have reported : Mismatching last := by
        by_cases fails : ∃ f, CountFails f after
        · obtain ⟨f, fails⟩ := fails
          exact interrupted f fails ▸ mismatching f fails
        · exact finished (not_exists.mp fails) ▸ mismatching_mismatch fault
      obtain ⟨reason, rfl⟩ := reported
      exact ⟨⟨_, ended, reason, rfl⟩, booked⟩

def refusing (recount : Except Fault UInt64) (_ : History surroundings) :
    (c : Call) → Option c.Reply
  | .leader _ (.addFollower _) _ => some (.error (.checksumMismatch "counts differ"))
  | .recountDocuments => some recount
  | _ => none

def refusedRun (recount : Except Fault UInt64) : History surroundings :=
  (troubledRun (refusing recount)).1

theorem refusedRun_findings : findings (refusedRun (.ok 10)) =
    [.counted (.ok 10), .finalized, .counted (.ok 10), .judged (.error (.checksumMismatch
      "counts differ")), .flagged, .counted (.ok 10), .recounted (.ok 10), .recalculated] := by
  decide +kernel

theorem refusedRun_refused : Refused (.checksumMismatch "counts differ") (refusedRun (.ok 10)) := by
  rw [refused_iff, refusedRun_findings]
  simp

theorem refusedRun_ends {recount : Except Fault UInt64} {fault : Option Fault}
    (ends : (troubledRun (refusing recount)).2.map Report.fault = some fault) :
    ∃ report, Runs (run calmSetting calmJob) (refusedRun recount) report ∧ report.fault = fault :=
  troubledRun_ends _ ends

theorem refusedRun_runs :
    ∃ report, Runs (run calmSetting calmJob) (refusedRun (.ok 10)) report := by
  have ends : (troubledRun (refusing (.ok 10))).2.map Report.fault =
      some (some (.checksumMismatch "counts differ")) := by decide +kernel
  obtain ⟨report, runs, _⟩ := refusedRun_ends ends
  exact ⟨report, runs⟩

theorem refusedRun_reports_mismatch :
    ∃ (before after : History surroundings) (report : Report) (endpoint : String)
        (request : AddFollowerRequest) (limit : Duration) (t : Store),
      Runs (run calmSetting calmJob) (refusedRun (.ok 10)) report ∧
      t = Store.afterAll {} (upkeeps (refusedRun (.ok 10))) ∧
      refusedRun (.ok 10) = before ++ ⟨.leader endpoint (.addFollower request) limit,
        .error (.checksumMismatch "counts differ")⟩ :: after ∧
      (∀ f, CountFails f after → Mismatching f) ∧ t.wrongChecksums = 1 ∧
      (∃ last, report.fault = some last ∧ Mismatching last) ∧ t.failures calmJob.key = 1 := by
  obtain ⟨report, runs⟩ := refusedRun_runs
  obtain ⟨endpoint, request, limit, mem⟩ := refusedRun_refused
  obtain ⟨before, after, split⟩ := List.append_of_mem mem
  have counted (f : Fault) (fails : CountFails f after) : Mismatching f := by
    have within : after ⊆ refusedRun (.ok 10) := by simp [split]
    have fails := countFails_iff.mp (fails.imp (within ·) (within ·))
    simp [refusedRun_findings] at fails
  obtain ⟨flagged, reported⟩ := run_reports_mismatch_iff calmSetting calmJob {} runs split rfl
  exact ⟨before, after, report, endpoint, request, limit, _, runs, rfl, split, counted, flagged,
    reported.mpr counted⟩

/-- Counting anew is interrupted by a shutdown: the mismatch goes unreported, and does not count
against the shard. -/
theorem interruptedRun_hides_mismatch :
    ∃ report, Runs (run calmSetting calmJob) (refusedRun (.error .shuttingDown)) report ∧
      Refused (.checksumMismatch "counts differ") (refusedRun (.error .shuttingDown)) ∧
      report.fault = some .shuttingDown ∧ ∀ store : Store,
        (store.afterAll (upkeeps (refusedRun (.error .shuttingDown)))).failures calmJob.key =
          store.failures calmJob.key := by
  have ends : (troubledRun (refusing (.error .shuttingDown))).2.map Report.fault =
      some (some .shuttingDown) := by decide +kernel
  obtain ⟨report, runs, fault⟩ := refusedRun_ends ends
  have found : findings (refusedRun (.error .shuttingDown)) =
      [.counted (.ok 10), .finalized, .counted (.ok 10), .judged (.error (.checksumMismatch
        "counts differ")), .flagged, .counted (.ok 10), .recounted (.error .shuttingDown)] := by
    decide +kernel
  refine ⟨report, runs, ?_, fault, fun store => ?_⟩
  · rw [refused_iff, found]
    simp
  · rw [(booked_of_runs calmSetting calmJob runs store).counted _ fault]
    exact if_neg Bool.false_ne_true

/-- Nothing is done about a wrong count before the leader refused a registration because of it, or
the count that follows the end of the log failed with its code. A run does nothing about a wrong
count without the leader's verdict if and only if that count does not fail so. -/
theorem run_repairs_on_verdict_iff (es : History surroundings) :
    (∀ c next, Steps (run setting job) es (.call c next) → c.isRepair = true →
      ∃ fault, fault.code = .wrongChecksum ∧ Met fault es) ∧
    ∀ report, Runs (run setting job) es report →
      (((∃ e ∈ es, Call.isRepair e.call = true) →
          ∃ fault, fault.code = .wrongChecksum ∧ Refused fault es) ↔
        ¬∃ fault, fault.code = .wrongChecksum ∧ Miscounted fault es) := by
  have k := run_keeps_repairLaw setting job
  refine ⟨fun c next steps => k.allowed steps, fun report runs => ⟨?_, ?_⟩⟩
  · rintro verdict ⟨fault, wrong, before, collection, start, bound, context, after, rfl⟩
    have course : Course _ report.fault := k.ended runs
    rw [List.nil_append] at course
    have split := findings_append before (⟨.finalize collection start bound context, .ok ()⟩ ::
      ⟨.documentCount, .error fault⟩ :: after)
    obtain ⟨unjudged, last, _, concluded⟩ := course.miscounted split
    -- The failed count itself starts the repair, and the leader is not asked any more.
    have flagged : .flagged ∈ findings after :=
      List.count_pos_iff.mp ((concluded.repair wrong).count_flagged ▸ Nat.one_pos)
    obtain ⟨e, mem, repairs⟩ := repair_of_flagged flagged
    obtain ⟨fault, _, refused⟩ := verdict ⟨e, by simp [mem], repairs⟩
    exact unjudged _ (refused_iff.mp refused)
  · intro counted repaired
    obtain ⟨e, mem, repairs⟩ := repaired
    obtain ⟨before, after, rfl⟩ := List.append_of_mem mem
    obtain ⟨next, steps⟩ := Steps.before runs
    obtain ⟨fault, wrong, met⟩ := k.allowed steps repairs
    refine ⟨fault, wrong, (met.append _).resolve_right fun miscounted => ?_⟩
    exact counted ⟨fault, wrong, miscounted⟩

theorem refusedRun_repairs_on_verdict :
    ∃ (before : History surroundings) (c : Call) (next : c.Reply → Act Report) (report : Report),
      Steps (run calmSetting calmJob) before (.call c next) ∧ c.isRepair = true ∧
      (∃ fault, fault.code = .wrongChecksum ∧ Met fault before) ∧
      Runs (run calmSetting calmJob) (refusedRun (.ok 10)) report ∧
      (∃ e ∈ refusedRun (.ok 10), Call.isRepair e.call = true) ∧
      ∃ fault, fault.code = .wrongChecksum ∧ Refused fault (refusedRun (.ok 10)) := by
  obtain ⟨report, runs⟩ := refusedRun_runs
  have repaired : ∃ e ∈ refusedRun (.ok 10), Call.isRepair e.call = true := by
    apply repair_of_flagged
    rw [refusedRun_findings]
    simp
  have counted :
      ¬∃ fault, fault.code = .wrongChecksum ∧ Miscounted fault (refusedRun (.ok 10)) := by
    rintro ⟨fault, _, before, collection, start, bound, context, after, split⟩
    have failed : .counted (.error fault) ∈ findings (refusedRun (.ok 10)) := by
      simp [mem_findings_counted, split]
    simp [refusedRun_findings] at failed
  have law := run_repairs_on_verdict_iff calmSetting calmJob (refusedRun (.ok 10))
  have verdict := (law.2 report runs).mpr counted repaired
  obtain ⟨e, mem, repairs⟩ := repaired
  obtain ⟨before, after, split⟩ := List.append_of_mem mem
  obtain ⟨next, steps⟩ := Steps.before (split ▸ runs)
  have met := (run_repairs_on_verdict_iff calmSetting calmJob before).1 e.call next steps repairs
  exact ⟨before, e.call, next, report, steps, repairs, met, runs, ⟨e, mem, repairs⟩, verdict⟩

def miscounting (h : History surroundings) : (c : Call) → Option c.Reply
  | .documentCount =>
    if (findings h).getLast? = some .finalized then
      some (.error (.checksumMismatch "no checksum"))
    else none
  | _ => none

def miscountedRun : History surroundings := (troubledRun miscounting).1

theorem miscountedRun_findings : findings miscountedRun =
    [.counted (.ok 10), .finalized, .counted (.error (.checksumMismatch "no checksum")), .flagged,
      .counted (.ok 10), .recounted (.ok 10), .recalculated] := by
  decide +kernel

/-- A run counts anew though the leader was not asked. -/
theorem miscountedRun_repairs_without_verdict :
    (∃ report, Runs (run calmSetting calmJob) miscountedRun report) ∧
      (∃ e ∈ miscountedRun, Call.isRepair e.call = true) ∧
      ∀ fault, ¬Refused fault miscountedRun := by
  have ends : (troubledRun miscounting).2.map Report.fault =
      some (some (.checksumMismatch "no checksum")) := by decide +kernel
  obtain ⟨report, runs, _⟩ := troubledRun_ends _ ends
  refine ⟨⟨report, runs⟩, repair_of_flagged ?_, fun fault => ?_⟩
  · rw [miscountedRun_findings]
    simp
  · rw [refused_iff, miscountedRun_findings]
    simp

end

end FollowerSync.Attempt
