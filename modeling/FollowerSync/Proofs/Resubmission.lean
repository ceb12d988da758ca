import FollowerSync.Proofs.Handover
import FollowerSync.Proofs.Milestones
import FollowerSync.Proofs.Reckoning

/-!
# Giving way to others

A job of normal priority gives way if the counts on both sides differ by too much. Its attempt puts
it into the queue once, with slow priority, and ends without having begun anything else. A slow job
never gives way, so that no job does so twice, and the queue loses and doubles nothing.
-/

set_option autoImplicit false

namespace FollowerSync.Attempt
open Maintenance

def appended (h : History surroundings) : List Job := (upkeeps h).filterMap queued

def Compared (onLeader here : UInt64) (h : History surroundings) : Prop :=
  [.leaderCounted (.ok onLeader), .counted (.ok here)] <+: milestones h

/-- The documents were counted, and the job has to give way. -/
def Outgrown (setting : Setting) (job : Job) (h : History surroundings) : Prop :=
  job.priority = .normal ∧ ∃ onLeader here, Compared onLeader here h ∧
    setting.settings.requeueDocDiffThreshold.toNat <
      ((onLeader.toNat : Int) - here.toNat).natAbs

/-- Calls by which the shard is locked, copied, followed or registered, or a version waited for. -/
def Call.Engages : Call → Prop
  | .leader _ (.newLockId _) _ | .leader _ (.acquireLock _) _ | .leader _ (.addFollower _) _
  | .setLeader _ | .bulkSync .. | .catchUp .. | .finalize .. | .fetchVersion _
  | .awaitVersion .. => True
  | _ => False

def Call.Unqueued (c : Call) : Prop := c.operation.bind queued = none

/-- A job goes into the queue only if it has to give way, and once. If it has to, nothing else was
begun and nothing else is done. -/
structure ResubmissionLaw (setting : Setting) (job : Job) (h : History surroundings) (c : Call) :
    Prop where
  queueing (other : Job) : c.operation.bind queued = some other →
    other = resubmission job ∧ Outgrown setting job h ∧ appended h = []
  yielding : Outgrown setting job h → c = .upkeep (.requeue job .slow) ∨ c = .now
  apart : Outgrown setting job h → ∀ e ∈ h, ¬Call.Engages e.call

structure Resolved (setting : Setting) (job : Job) (report : Report) (h : History surroundings) :
    Prop where
  stayed : ¬Outgrown setting job h → appended h = []
  yielded : Outgrown setting job h → appended h = [resubmission job] ∧ report.state = .failed ∧
    report.fault = some .requeued ∧ ∀ e ∈ h, ¬Call.Engages e.call

section
variable {setting : Setting} {job : Job} {h later : History surroundings}
  {e : Event surroundings} {c : Call} {j : Journal} {onLeader here : UInt64}

theorem difference_eq (m n : UInt64) : difference m n = ((m.toNat : Int) - n.toNat).natAbs := by
  unfold difference
  omega

theorem appended_eq_marks (h : History surroundings) :
    appended h = marks (fun e => (Call.operation e.call).bind queued) h := List.filterMap_filterMap

theorem appended_of_unqueued {jobs : List Job} (start : appended h = jobs)
    (unqueued : Call.Unqueued e.call) : appended (h ++ [e]) = jobs := by
  rw [appended_eq_marks] at start ⊢
  exact marks_of_none start unqueued

theorem appended_of_queued {other : Job} (start : appended h = [])
    (added : (Call.operation e.call).bind queued = some other) : appended (h ++ [e]) = [other] := by
  rw [appended_eq_marks] at start ⊢
  exact marks_of_some start added

theorem milestones_append (h later : History surroundings) :
    milestones (h ++ later) = milestones h ++ milestones later := marks_append h later

theorem Compared.append (compared : Compared onLeader here h) (later : History surroundings) :
    Compared onLeader here (h ++ later) := by
  unfold Compared
  rw [milestones_append]
  exact compared.trans (List.prefix_append _ _)

theorem Outgrown.append (outgrown : Outgrown setting job h) (later : History surroundings) :
    Outgrown setting job (h ++ later) := by
  obtain ⟨normal, onLeader, here, compared, large⟩ := outgrown
  exact ⟨normal, onLeader, here, compared.append later, large⟩

theorem not_outgrown_of_marks {ms : List Milestone} (reached : milestones h = ms)
    (miscounted : ∀ onLeader here : UInt64,
      ¬[.leaderCounted (.ok onLeader), .counted (.ok here)] <+: ms) : ¬Outgrown setting job h := by
  rintro ⟨-, onLeader, here, compared, -⟩
  unfold Compared at compared
  rw [reached] at compared
  exact miscounted onLeader here compared

theorem compared_append_iff (counted : milestones h = j.counts) :
    Compared onLeader here (h ++ later) ↔
      onLeader = j.initialLeaderCount ∧ here = j.initialFollowerCount := by
  unfold Compared
  rw [milestones_append, counted]
  simp [Journal.counts]

theorem outgrown_append_iff (counted : milestones h = j.counts) :
    Outgrown setting job (h ++ later) ↔ job.priority = .normal ∧
      setting.settings.requeueDocDiffThreshold.toNat <
        difference j.initialLeaderCount j.initialFollowerCount := by
  unfold Outgrown
  rw [difference_eq]
  simp [compared_append_iff counted]

end

def Call.Idle (c : Call) : Prop := c.Silent ∧ c.Unqueued ∧ ¬c.Engages

structure Unstarted (h : History surroundings) : Prop where
  uncounted : milestones h = []
  unqueued : appended h = []
  apart : ∀ e ∈ h, ¬Call.Engages e.call

def Staying (setting : Setting) (job : Job) (h : History surroundings) : Prop :=
  appended h = [] ∧ ¬Outgrown setting job h

/-- Whatever follows, the job does not have to give way. -/
def Secured (setting : Setting) (job : Job) (h : History surroundings) : Prop :=
  appended h = [] ∧ ∀ later, ¬Outgrown setting job (h ++ later)

structure Resubmitted (setting : Setting) (job : Job) (h : History surroundings) : Prop where
  outgrown : Outgrown setting job h
  once : appended h = [resubmission job]
  apart : ∀ e ∈ h, ¬Call.Engages e.call

section
variable {c : Call}

theorem Call.Looks.unqueued (looks : c.Looks) : c.Unqueued := by
  cases c <;> first | rfl | cases looks

theorem Call.Copies.unqueued (copies : c.Copies) : c.Unqueued := by
  cases c <;> first | rfl | cases copies

theorem Call.Follows.unqueued (follows : c.Follows) : c.Unqueued := by
  cases c <;> first | rfl | cases follows

theorem Call.Registers.unqueued (registers : c.Registers) : c.Unqueued := by
  cases c <;> first | rfl | cases registers

theorem Call.Repairs.unqueued (repairs : c.Repairs) : c.Unqueued := by
  cases c with
  | upkeep op =>
    obtain rfl : op = .countWrongChecksum := repairs
    rfl
  | _ => rfl

theorem Call.Closes.unqueued {job : Job} (closes : c.Closes job) : c.Unqueued := by
  cases c with
  | upkeep op =>
    have closing : op ∈ _ := closes
    simp only [List.mem_cons, List.not_mem_nil, or_false] at closing
    rcases closing with rfl | rfl | rfl | rfl | rfl <;> rfl
  | _ => rfl

theorem Call.Bides.idle {job : Job} (bides : c.Bides job) : c.Idle := by
  cases c with
  | upkeep op =>
    obtain rfl : op = .failures job.key := bides
    exact ⟨fun _ => rfl, rfl, id⟩
  | _ => first | exact ⟨fun _ => rfl, rfl, id⟩ | cases bides

end

section
variable (setting : Setting) (job : Job)

theorem law_of_staying {h : History surroundings} {c : Call} (staying : ¬Outgrown setting job h)
    (unqueued : c.Unqueued) : ResubmissionLaw setting job h c where
  queueing other added := by
    rw [unqueued] at added
    cases added
  yielding outgrown := absurd outgrown staying
  apart outgrown := absurd outgrown staying

theorem Unstarted.staying {h : History surroundings} (unstarted : Unstarted h) :
    Staying setting job h :=
  ⟨unstarted.unqueued, not_outgrown_of_marks unstarted.uncounted (by simp)⟩

theorem Secured.staying {setting : Setting} {job : Job} {h : History surroundings}
    (secured : Secured setting job h) : Staying setting job h := by
  have now := secured.2 []
  rw [List.append_nil] at now
  exact ⟨secured.1, now⟩

theorem apart_append {h : History surroundings} {e : Event surroundings}
    (apart : ∀ e ∈ h, ¬Call.Engages e.call) (new : ¬Call.Engages e.call) :
    ∀ e' ∈ h ++ [e], ¬Call.Engages e'.call := by
  rw [List.forall_mem_append]
  exact ⟨apart, by simpa using new⟩

theorem Unstarted.idle {h : History surroundings} {e : Event surroundings} (unstarted : Unstarted h)
    (idle : Call.Idle e.call) : Unstarted (h ++ [e]) where
  uncounted := milestones_of_none unstarted.uncounted (idle.1 e.reply)
  unqueued := appended_of_unqueued unstarted.unqueued idle.2.1
  apart := apart_append unstarted.apart idle.2.2

theorem unstarted_stable :
    Stage.Stable (ResubmissionLaw setting job) Call.Idle fun _ => Unstarted where
  allowed _ _ _ unstarted idle := law_of_staying _ _ (unstarted.staying setting job).2 idle.2.1
  kept _ _ _ _ unstarted idle := unstarted.idle idle

theorem secured_stable :
    Stage.Stable (ResubmissionLaw setting job) Call.Unqueued fun _ => Secured setting job where
  allowed _ _ _ secured unqueued := law_of_staying _ _ secured.staying.2 unqueued
  kept := by
    intro _ h c r secured unqueued
    refine ⟨appended_of_unqueued secured.1 unqueued, fun later => ?_⟩
    rw [List.append_assoc]
    exact secured.2 _

theorem staying_stable :
    Stage.Stable (ResubmissionLaw setting job) (Call.Closes job)
      fun _ => Staying setting job where
  allowed _ _ _ staying closes := law_of_staying _ _ staying.2 closes.unqueued
  kept := by
    intro _ h c r staying closes
    have same : milestones (h ++ [⟨c, r⟩]) = milestones h :=
      milestones_of_none rfl (closes.silent r)
    refine ⟨appended_of_unqueued staying.1 closes.unqueued, ?_⟩
    unfold Outgrown Compared
    rw [same]
    exact staying.2

def Broken (fault : Fault) (h : History surroundings) : Prop :=
  Staying setting job h ∨ fault = .requeued ∧ Resubmitted setting job h

structure Weighed (j : Journal) (h : History surroundings) : Prop where
  counted : milestones h = j.counts
  unqueued : appended h = []
  apart : ∀ e ∈ h, ¬Call.Engages e.call

variable {setting job} in
theorem Secured.keeps {α : Type} {s : Stage α} {h : History surroundings}
    (secured : Secured setting job h) (u : s.Uses Call.Unqueued) (j : Journal) :
    s.Keeps (ResubmissionLaw setting job) (fun _ _ => Secured setting job)
      (fun fault _ => Broken setting job fault) j h :=
  (u.preserves (secured_stable setting job) j h secured).mono (fun _ _ _ => id)
    fun _ _ _ secured => .inl secured.staying

theorem lookupShard_idle : (lookupShard job).Uses Call.Idle :=
  lookupShard_uses job ⟨fun _ => rfl, rfl, id⟩

theorem readInitialCounts_weighs (endpoint : String) {j : Journal} {h : History surroundings}
    (unstarted : Unstarted h) :
    (readInitialCounts setting job endpoint).Keeps (ResubmissionLaw setting job)
      (fun _ => Weighed) (fun _ _ => Staying setting job) j h := by
  obtain ⟨uncounted, unqueued, apart⟩ := unstarted
  let counting : Call := .leader endpoint (.collectionCount job.database job.shard)
    setting.settings.leaderCountTimeout
  simp only [readInitialCounts, ask_eq, Stage.keeps_bind, Stage.keeps_attempt, Stage.keeps_modify,
    Program.keeps_call, Program.keeps_done]
  refine ⟨law_of_staying _ _ (not_outgrown_of_marks uncounted (by simp)) rfl, ?_⟩
  rintro (fault | onLeader)
  · have failed := milestones_of_some uncounted (e := ⟨counting, .error fault⟩) rfl
    exact ⟨appended_of_unqueued unqueued rfl, not_outgrown_of_marks failed (by simp)⟩
  · have first := milestones_of_some uncounted (e := ⟨counting, .ok onLeader⟩) rfl
    have still : appended (h ++ [⟨counting, .ok onLeader⟩]) = [] :=
      appended_of_unqueued unqueued rfl
    refine ⟨law_of_staying _ _ (not_outgrown_of_marks first (by simp)) rfl, ?_⟩
    rintro (fault | here)
    · have failed := milestones_of_some first (e := ⟨.documentCount, .error fault⟩) rfl
      exact ⟨appended_of_unqueued still rfl, not_outgrown_of_marks failed (by simp)⟩
    · exact ⟨milestones_of_some first rfl, appended_of_unqueued still rfl,
        apart_append (apart_append apart id) id⟩

theorem checkRequeue_decides {j : Journal} {h : History surroundings} (weighed : Weighed j h) :
    (checkRequeue setting job).Keeps (ResubmissionLaw setting job)
      (fun _ _ => Secured setting job) (fun fault _ => Broken setting job fault) j h := by
  obtain ⟨counted, unqueued, apart⟩ := weighed
  simp only [checkRequeue, Stage.keeps_bind, Stage.keeps_get]
  by_cases stays : job.priority = .slow ∨ difference j.initialLeaderCount j.initialFollowerCount ≤
      setting.settings.requeueDocDiffThreshold.toNat
  · rw [if_pos stays]
    refine ⟨unqueued, fun later outgrown => ?_⟩
    obtain ⟨normal, large⟩ := (outgrown_append_iff counted).mp outgrown
    rcases stays with slow | small
    · rw [normal] at slow
      cases slow
    · omega
  · rw [if_neg stays]
    rw [not_or, Nat.not_le] at stays
    have normal : job.priority = .normal := by
      cases priority : job.priority with
      | normal => rfl
      | slow => exact absurd priority stays.1
    have outgrown (later : History surroundings) : Outgrown setting job (h ++ later) :=
      (outgrown_append_iff counted).mpr ⟨normal, stays.2⟩
    have now := outgrown []
    rw [List.append_nil] at now
    simp only [ask_eq, Stage.keeps_bind, Stage.keeps_act, Stage.keeps_throw, Program.keeps_call,
      Program.keeps_done]
    refine ⟨⟨?queueing, fun _ => .inl rfl, fun _ => apart⟩, fun _ => .inr ⟨rfl, ?resubmitted⟩⟩
    case queueing =>
      intro other added
      cases added
      exact ⟨rfl, now, unqueued⟩
    case resubmitted =>
      exact ⟨outgrown _, appended_of_queued unqueued rfl, apart_append apart id⟩

theorem prepare_secures {j : Journal} {h : History surroundings} (unstarted : Unstarted h) :
    (prepare setting job).Keeps (ResubmissionLaw setting job)
      (fun _ _ => Secured setting job) (fun fault _ => Broken setting job fault) j h := by
  have stable := unstarted_stable setting job
  have failed (fault : Fault) (_ : Journal) (h : History surroundings) (unstarted : Unstarted h) :
      Broken setting job fault h := .inl (unstarted.staying setting job)
  refine (Stage.uses_enter .prepare).andThen stable unstarted failed fun _ j h unstarted => ?_
  refine (lookupShard_idle job).andThen stable unstarted failed fun _ j h unstarted => ?_
  refine Stage.Uses.andThen (Stage.uses_attempt ⟨⟨fun _ => rfl, rfl, id⟩, fun _ => trivial⟩) stable
    unstarted failed fun endpoint j h unstarted => ?_
  rw [Stage.keeps_bind]
  refine (readInitialCounts_weighs setting job endpoint unstarted).mono ?_ fun _ _ _ => .inl
  intro _ j h weighed
  rw [Stage.keeps_bind]
  refine (checkRequeue_decides setting job weighed).mono ?_ fun _ _ _ => id
  intro _ j h secured
  have looks (c : Call) (looks : c.Looks) : c.Unqueued := looks.unqueued
  refine secured.keeps ?_ j
  exact .bind ((startAttemptClock_uses setting job).mono looks) fun _ =>
    .bind (Stage.uses_act ⟨rfl, fun _ => trivial⟩) fun _ =>
    .bind (unlessStopping_uses.mono looks) fun _ => Stage.uses_pure endpoint

theorem synchronization_unqueued (endpoint : String) : Stage.Uses Call.Unqueued (do
    let syncerId ← copyShard setting job endpoint
    catchUpSoftly setting job endpoint
    Stage.unlessStopping
    catchUpHard setting job endpoint syncerId) := by
  refine .bind ?copied fun syncerId => .bind ?followed fun _ => .bind ?stopping fun _ => ?caughtUp
  case copied => exact (copyShard_uses setting job endpoint).mono fun _ => Call.Copies.unqueued
  case followed =>
    exact (catchUpSoftly_uses setting job endpoint).mono fun _ => Call.Follows.unqueued
  case stopping => exact unlessStopping_uses.mono fun _ => Call.Looks.unqueued
  case caughtUp =>
    exact catchUpHard_uses setting job endpoint syncerId (fun _ => Call.Follows.unqueued)
      (fun _ => Call.Registers.unqueued) fun _ => Call.Repairs.unqueued

theorem work_resubmits {j : Journal} {h : History surroundings} (unstarted : Unstarted h) :
    (work setting job).Keeps (ResubmissionLaw setting job) (fun _ _ => Staying setting job)
      (fun fault _ => Broken setting job fault) j h := by
  rw [work_eq]
  refine ((standBy_bides setting job).mono fun _ => Call.Bides.idle).andThen
    (unstarted_stable setting job) unstarted
    (fun _ _ _ unstarted => .inl (unstarted.staying setting job)) fun _ j h unstarted => ?_
  rw [Stage.keeps_bind]
  refine (prepare_secures setting job unstarted).mono ?_ fun _ _ _ => id
  intro endpoint j h secured
  have rest := secured.keeps (synchronization_unqueued setting job endpoint) j
  exact rest.mono (fun _ _ _ secured => secured.staying) fun _ _ _ => id

theorem close_requeued : close setting job (some .requeued) = .done () := rfl

theorem concludes_staying {began : Instant} {fault : Option Fault} {j : Journal}
    {h : History surroundings} (staying : Staying setting job h) :
    Concludes (ResubmissionLaw setting job) (Resolved setting job) setting job began fault j h := by
  refine ((staying_stable setting job).keeps (close_uses setting job fault) (j := j) staying).mono
    fun _ h staying => ?_
  refine ⟨law_of_staying _ _ staying.2 rfl, fun ended => ?_⟩
  have last := (staying_stable setting job).kept j h .now ended staying trivial
  exact ⟨fun _ => last.1, fun outgrown => absurd outgrown last.2⟩

theorem concludes_resubmitted {began : Instant} {j : Journal} {h : History surroundings}
    (resubmitted : Resubmitted setting job h) :
    Concludes (ResubmissionLaw setting job) (Resolved setting job) setting job began
      (some .requeued) j h := by
  obtain ⟨outgrown, once, apart⟩ := resubmitted
  unfold Concludes
  rw [close_requeued]
  refine ⟨⟨nofun, fun _ => .inr rfl, fun _ => apart⟩, fun ended => ?_⟩
  refine ⟨fun staying => absurd (outgrown.append _) staying, fun _ => ⟨?_, rfl, rfl, ?_⟩⟩
  · exact appended_of_unqueued once rfl
  · exact apart_append apart id

theorem run_keeps_resubmissionLaw :
    (run setting job).Keeps (ResubmissionLaw setting job) (Resolved setting job) [] := by
  have begun : Unstarted [] := ⟨rfl, rfl, by simp⟩
  rw [keeps_run]
  refine ⟨law_of_staying _ _ (begun.staying setting job).2 rfl, fun began => ?_⟩
  have started : Unstarted [⟨.now, began⟩] := ⟨rfl, rfl, by simp [Call.Engages]⟩
  refine (work_resubmits setting job started).mono ?_ ?_
  · exact fun _ _ _ staying => concludes_staying setting job staying
  · rintro fault j h (staying | ⟨rfl, resubmitted⟩)
    · exact concludes_staying setting job staying
    · exact concludes_resubmitted setting job resubmitted

variable {setting job}

theorem exists_runs_of_outgrown {α : Type} {p : Act α} {h : History surroundings}
    {Q : α → History surroundings → Prop} (k : p.Keeps (ResubmissionLaw setting job) Q h)
    (outgrown : Outgrown setting job h) : ∃ later a, Runs p later a := by
  induction p generalizing h with
  | done a => exact ⟨[], a, .refl _⟩
  | call c next ih =>
    obtain ⟨law, rest⟩ := k
    have answered (r : c.Reply) : ∃ later a, Runs (.call c next) later a := by
      obtain ⟨later, a, runs⟩ := ih r (rest r) (outgrown.append _)
      exact ⟨⟨c, r⟩ :: later, a, .call runs⟩
    rcases law.yielding outgrown with rfl | rfl
    · exact answered ()
    · exact answered (0 : Nat)

theorem appended_of_steps {es : History surroundings} {q : Act Report}
    (steps : Steps (run setting job) es q) :
    appended es = [] ∨ appended es = [resubmission job] ∧ Outgrown setting job es := by
  induction es using List.reverseRecOn generalizing q with
  | nil => exact .inl rfl
  | append_singleton es e ih =>
    obtain ⟨next, earlier⟩ := steps.before
    cases added : (Call.operation e.call).bind queued with
    | none =>
      rcases ih earlier with none | ⟨once, outgrown⟩
      · exact .inl (appended_of_unqueued none added)
      · exact .inr ⟨appended_of_unqueued once added, outgrown.append _⟩
    | some other =>
      have law := (run_keeps_resubmissionLaw setting job).allowed earlier
      obtain ⟨rfl, outgrown, unqueued⟩ := law.queueing other added
      exact .inr ⟨appended_of_queued unqueued added, outgrown.append _⟩

theorem apart_of_steps {es : History surroundings} {q : Act Report}
    (steps : Steps (run setting job) es q) (outgrown : Outgrown setting job es) :
    ∀ e ∈ es, ¬Call.Engages e.call := by
  have k := (run_keeps_resubmissionLaw setting job).of_steps steps
  cases q with
  | done report => exact (Resolved.yielded k outgrown).2.2.2
  | call c next => exact k.1.apart outgrown

theorem appended_of_slow {es : History surroundings} {q : Act Report}
    (steps : Steps (run setting job) es q) (slow : job.priority = .slow) : appended es = [] := by
  rcases appended_of_steps steps with none | ⟨-, normal, -⟩
  · exact none
  · rw [slow] at normal
    cases normal

end

/-- An attempt that was begun, with what it called so far. -/
structure Attempted where
  setting : Setting
  job : Job
  calls : History surroundings
  rest : Act Report
  steps : Steps (run setting job) calls rest

/-- The attempt is about a job that the other one put into the queue. -/
def Attempted.Resubmits (a b : Attempted) : Prop := b.job ∈ appended a.calls

theorem flatMap_of_slow {a : Attempted} {later : List Attempted} (slow : a.job.priority = .slow)
    (chained : (a :: later).IsChain Attempted.Resubmits) :
    ((a :: later).flatMap fun a => appended a.calls) = [] := by
  have none := appended_of_slow a.steps slow
  cases later with
  | nil => simp [none]
  | cons b later =>
    have resubmits : b.job ∈ appended a.calls := (List.isChain_cons_cons.mp chained).1
    rw [none] at resubmits
    cases resubmits

/-- Along any chain of attempts each of which takes up what the one before it put into the queue, a
job goes into the queue at most once. -/
theorem resubmissions_length_le_one {chain : List Attempted}
    (chained : chain.IsChain Attempted.Resubmits) :
    (chain.flatMap fun a => appended a.calls).length ≤ 1 := by
  cases chain with
  | nil => exact Nat.zero_le 1
  | cons a later =>
    have once : (appended a.calls).length ≤ 1 := by
      rcases appended_of_steps a.steps with none | ⟨once, -⟩ <;> simp [*]
    cases later with
    | nil => simpa using once
    | cons b later =>
      rw [List.isChain_cons_cons] at chained
      obtain ⟨resubmits, chained⟩ := chained
      have slow : b.job.priority = .slow := by
        rcases appended_of_steps a.steps with none | ⟨once, -⟩
        · simp [Attempted.Resubmits, none] at resubmits
        · simp only [Attempted.Resubmits, once, List.mem_singleton] at resubmits
          rw [resubmits]
          rfl
      rw [List.flatMap_cons, flatMap_of_slow slow chained, List.append_nil]
      exact once

/-- An attempt gives way exactly if the counts it finds are too far apart, with one slow copy of its
job and before it touches the shard; the copy does not give way again. What is handed out is what was
queued, in that order. -/
theorem attempts_give_way_once (setting : Setting) (job : Job) :
    (∀ es report, Runs (run setting job) es report →
      (appended es ≠ [] ↔ Outgrown setting job es) ∧
      (Outgrown setting job es → appended es = [resubmission job] ∧ report.state = .failed ∧
        report.fault = some .requeued ∧ ∀ e ∈ es, ¬Call.Engages e.call)) ∧
    (∀ es q, Steps (run setting job) es q →
      (appended es = [] ∨ appended es = [resubmission job] ∧ Outgrown setting job es) ∧
      (Outgrown setting job es → (∀ e ∈ es, ¬Call.Engages e.call) ∧
        ∃ later report, Runs q later report) ∧
      (job.priority = .slow → appended es = [])) ∧
    (∀ chain : List Attempted, chain.IsChain Attempted.Resubmits →
      (chain.flatMap fun a => appended a.calls).length ≤ 1) ∧
    ∀ ops : List Operation,
      (Store.transcript {} ops).flatMap handedOut ++ (Store.afterAll {} ops).requeued =
        ops.filterMap queued ∧
      (Store.transcript {} (ops ++ [.takeRequeued])).flatMap handedOut = ops.filterMap queued := by
  have k := run_keeps_resubmissionLaw setting job
  refine ⟨?ended, ?under_way, fun _ => resubmissions_length_le_one, fun ops => ?_⟩
  case ended =>
    intro es report runs
    have resolved : Resolved setting job report es := k.ended runs
    refine ⟨⟨fun some => ?_, fun outgrown => ?_⟩, resolved.yielded⟩
    · by_contra staying
      exact some (resolved.stayed staying)
    · rw [(resolved.yielded outgrown).1]
      exact List.cons_ne_nil _ _
  case under_way =>
    intro es q steps
    refine ⟨appended_of_steps steps, fun outgrown => ⟨apart_of_steps steps outgrown, ?_⟩,
      appended_of_slow steps⟩
    exact exists_runs_of_outgrown (k.of_steps steps) outgrown
  · exact ⟨handedOut_transcript {} ops, handedOut_all ops⟩

section
variable (job : Job) (trouble : History surroundings → (c : Call) → Option c.Reply)

def troubledRunOf : History surroundings × Option Report :=
  (run calmSetting job).play
    (Program.noting (S := surroundings) fun h c => (trouble h c).or (calm c)) []

theorem troubledRunOf_runs {report : Report} (ended : (troubledRunOf job trouble).2 = some report) :
    Runs (run calmSetting job) (troubledRunOf job trouble).1 report :=
  Program.runs_of_played ended

end

def slowRun : History surroundings := (troubledRunOf (resubmission calmJob) outgrown).1

theorem outgrownRun_gives_way_once :
    ∃ (report : Report) (chain : List Attempted),
      Runs (run calmSetting calmJob) outgrownRun report ∧
      Outgrown calmSetting calmJob outgrownRun ∧ report.fault = some .requeued ∧
      appended outgrownRun = [resubmission calmJob] ∧ appended slowRun = [] ∧
      chain.map Attempted.job = [calmJob, resubmission calmJob] ∧
      chain.IsChain Attempted.Resubmits ∧
      (chain.flatMap fun a => appended a.calls).length ≤ 1 := by
  have ends : (troubledRun outgrown).2.map Report.fault = some (some .requeued) := by
    decide +kernel
  have slowEnds : (troubledRunOf (resubmission calmJob) outgrown).2.isSome = true := by
    decide +kernel
  have once : appended outgrownRun = [resubmission calmJob] := by decide +kernel
  have some : appended outgrownRun ≠ [] := once ▸ List.cons_ne_nil _ _
  obtain ⟨report, runs, fault⟩ := troubledRun_ends _ ends
  obtain ⟨slowReport, slowEnded⟩ := Option.isSome_iff_exists.mp slowEnds
  have slowRuns := troubledRunOf_runs _ _ slowEnded
  obtain ⟨ended, -, chains, -⟩ := attempts_give_way_once calmSetting calmJob
  obtain ⟨-, underWay, -, -⟩ := attempts_give_way_once calmSetting (resubmission calmJob)
  have outgrown := (ended outgrownRun report runs).1.mp some
  have none := (underWay slowRun _ slowRuns).2.2 rfl
  let chain : List Attempted := [⟨calmSetting, calmJob, outgrownRun, _, runs⟩,
    ⟨calmSetting, resubmission calmJob, slowRun, _, slowRuns⟩]
  have chained : chain.IsChain Attempted.Resubmits := by
    simp [chain, Attempted.Resubmits, once]
  exact ⟨report, chain, runs, outgrown, fault, once, none, rfl, chained, chains chain chained⟩

end FollowerSync.Attempt
