import FollowerSync.Proofs.Footprints

set_option autoImplicit false

namespace FollowerSync.Attempt

abbrev Planning := ShardPlace → Except Fault (List String)

/-- What there is to be seen when a context is examined. -/
structure Moment where
  stopping : Bool
  now : Instant
  planned : Planning

def Moment.answer (m : Moment) : (c : Call) → Option c.Reply
  | .stopping => some m.stopping
  | .now => some m.now
  | .plannedServers place => some (m.planned place)
  | _ => none

def Moment.finds {α : Type} (m : Moment) (p : Act α) : Option α := (p.follow m.answer).map Prod.snd

namespace Context

def isPlanned (c : Context) (planned : Planning) : Bool :=
  match c.plan with
  | some check => check.holds (planned check.place)
  | none => true

/-- The reason for giving up, in the order in which reasons are looked for. -/
def verdict (c : Context) (m : Moment) : Option AbortReason :=
  if m.stopping then some .shutdown
  else if c.isLate m.now then some .deadlineExceeded
  else if c.isPlanned m.planned then none
  else some .noLongerPlanned

def looksAtClock (c : Context) (now : Instant) : History surroundings :=
  if c.deadline.isSome then [⟨.now, now⟩] else []

def looksAtPlan (c : Context) (planned : Planning) : History surroundings :=
  match c.plan with
  | some check => [⟨.plannedServers check.place, planned check.place⟩]
  | none => []

/-- The looks that an examination takes: what is settled needs no further one. -/
def looks (c : Context) (m : Moment) : History surroundings :=
  ⟨.stopping, m.stopping⟩ ::
    if m.stopping then []
    else c.looksAtClock m.now ++ if c.isLate m.now then [] else c.looksAtPlan m.planned

section
variable (c : Context) (m : Moment)

theorem checkLate_follow :
    c.checkLate.follow m.answer = some (c.looksAtClock m.now, c.isLate m.now) := by
  obtain ⟨_ | deadline, plan⟩ := c <;> rfl

theorem checkPlan_follow :
    c.checkPlan.follow m.answer = some (c.looksAtPlan m.planned, c.isPlanned m.planned) := by
  obtain ⟨deadline, _ | check⟩ := c <;> rfl

theorem isStopping_follow :
    c.isStopping.follow m.answer = some ([⟨.stopping, m.stopping⟩], m.stopping) := rfl

theorem check_follow : c.check.follow m.answer = some (c.looks m, c.verdict m) := by
  unfold check looks verdict
  simp only [Program.bind_eq, Program.follow_bind, isStopping_follow]
  cases m.stopping with
  | true => rfl
  | false =>
    simp only [Bool.false_eq_true, if_false, Program.follow_bind, checkLate_follow, Option.bind_some]
    cases c.isLate m.now with
    | true => simp [Program.follow]
    | false =>
      simp only [Bool.false_eq_true, if_false, Program.follow_bind, checkPlan_follow, Option.bind_some]
      cases c.isPlanned m.planned <;> simp [Program.follow]

theorem finds_isStopping : m.finds c.isStopping = some m.stopping := by
  rw [Moment.finds, isStopping_follow]
  rfl

theorem finds_checkLate : m.finds c.checkLate = some (c.isLate m.now) := by
  rw [Moment.finds, checkLate_follow]
  rfl

theorem finds_check : m.finds c.check = some (c.verdict m) := by
  rw [Moment.finds, check_follow]
  rfl

end

section
variable {ok : History surroundings → Call → Prop} {h : History surroundings} (c : Context)

theorem keeps_checkLate {Q : Bool → History surroundings → Prop}
    (allowed : ∀ h c, c.Watches → ok h c)
    (seen : ∀ now, Q (c.isLate now) (h ++ c.looksAtClock now)) :
    c.checkLate.Keeps ok Q h := by
  obtain ⟨_ | deadline, plan⟩ := c
  · have seen := seen 0
    rwa [looksAtClock, if_neg nofun, List.append_nil] at seen
  · exact ⟨allowed _ _ trivial, seen⟩

theorem keeps_checkPlan {Q : Bool → History surroundings → Prop}
    (allowed : ∀ h c, c.Watches → ok h c)
    (seen : ∀ planned, Q (c.isPlanned planned) (h ++ c.looksAtPlan planned)) :
    c.checkPlan.Keeps ok Q h := by
  obtain ⟨deadline, _ | check⟩ := c
  · have seen := seen fun _ => .ok []
    rwa [looksAtPlan, List.append_nil] at seen
  · exact ⟨allowed _ _ trivial, fun planned => seen fun _ => planned⟩

theorem keeps_check {Q : Option AbortReason → History surroundings → Prop}
    (allowed : ∀ h c, c.Watches → ok h c) (seen : ∀ m, Q (c.verdict m) (h ++ c.looks m)) :
    c.check.Keeps ok Q h := by
  unfold check isStopping
  simp only [ask_eq, Program.bind_eq, Program.bind_call, Program.bind_done, Program.keeps_call,
    Program.keeps_ite, Program.keeps_bind]
  refine ⟨allowed _ _ trivial, fun stopping => ⟨fun stops => ?stops, fun goesOn => ?goesOn⟩⟩
  case stops =>
    simpa [verdict, looks, stops] using seen ⟨stopping, 0, fun _ => .ok []⟩
  case goesOn =>
    refine c.keeps_checkLate allowed fun now => ⟨fun late => ?late, fun early => ?early⟩
    case late => simpa [verdict, looks, goesOn, late] using seen ⟨stopping, now, fun _ => .ok []⟩
    case early =>
      refine c.keeps_checkPlan allowed fun planned => ?_
      have seen := seen ⟨stopping, now, planned⟩
      refine ⟨fun holds => ?_, fun fails => ?_⟩
      · simpa [verdict, looks, goesOn, early, holds] using seen
      · simpa [verdict, looks, goesOn, early, fails] using seen

end

theorem isLate_iff {c : Context} {now : Instant} :
    c.isLate now = true ↔ ∃ deadline, c.deadline = some deadline ∧ deadline ≤ now := by
  obtain ⟨_ | deadline, plan⟩ := c <;> simp [isLate]

theorem isLate_eq_false_iff {c : Context} {now : Instant} :
    c.isLate now = false ↔ ¬∃ deadline, c.deadline = some deadline ∧ deadline ≤ now := by
  rw [← isLate_iff, Bool.not_eq_true]

section
variable {c : Context} {m : Moment}

theorem verdict_eq_shutdown_iff : c.verdict m = some .shutdown ↔ m.stopping = true := by
  grind [verdict]

theorem verdict_eq_deadlineExceeded_iff :
    c.verdict m = some .deadlineExceeded ↔ m.stopping = false ∧ c.isLate m.now = true := by
  grind [verdict]

theorem verdict_eq_noLongerPlanned_iff : c.verdict m = some .noLongerPlanned ↔
    m.stopping = false ∧ c.isLate m.now = false ∧ c.isPlanned m.planned = false := by
  grind [verdict]

theorem verdict_eq_none_iff : c.verdict m = none ↔
    m.stopping = false ∧ c.isLate m.now = false ∧ c.isPlanned m.planned = true := by
  grind [verdict]

end

/-- What becomes of a fault that is judged by what the context says at the moment. -/
def judge (c : Context) (m : Moment) (fault : Fault) : Fault :=
  if fault.countsAsFailure then ((c.verdict m).map AbortReason.fault).getD fault else fault

def looksToJudge (c : Context) (m : Moment) (fault : Fault) : History surroundings :=
  if fault.countsAsFailure then c.looks m else []

theorem judge_of_some {c : Context} {m : Moment} {fault : Fault} {reason : AbortReason}
    (counts : fault.countsAsFailure = true) (found : c.verdict m = some reason) :
    c.judge m fault = reason.fault := by
  rw [judge, if_pos counts, found]
  rfl

theorem judge_of_none {c : Context} {m : Moment} {fault : Fault} (none : c.verdict m = none) :
    c.judge m fault = fault := by
  rw [judge, none]
  exact ite_self fault

theorem judge_countsAsFailure (c : Context) (m : Moment) (fault : Fault) :
    (c.judge m fault).countsAsFailure = true ↔ fault.countsAsFailure = true ∧ c.verdict m = none := by
  unfold judge
  cases counts : fault.countsAsFailure with
  | false => simp [counts]
  | true =>
    cases c.verdict m with
    | none => simpa using counts
    | some reason => simp [reason.fault_not_counted]

end Context

def Planned (setting : Setting) (job : Job) (m : Moment) : Prop :=
  ∃ followers, m.planned job.place = .ok (job.leader :: followers) ∧ setting.server ∈ followers

theorem holds_iff_planned {setting : Setting} {job : Job} {m : Moment} :
    (planCheck setting job).holds (m.planned job.place) = true ↔ Planned setting job m := by
  unfold PlanCheck.holds Planned
  cases m.planned job.place with
  | error fault => simp
  | ok servers => simp [Cluster.isPlannedFollower_iff, planCheck]

section
variable {ok : History surroundings → Call → Prop} {E : Fault → Journal → History surroundings → Prop}
  {j : Journal} {h : History surroundings} (setting : Setting) (job : Job)

theorem keeps_classify {Q : Fault → Journal → History surroundings → Prop}
    (allowed : ∀ h c, c.Watches → ok h c) {fault : Fault}
    (judged : ∀ m, Q ((j.plannedContext setting job).judge m fault) j
      (h ++ (j.plannedContext setting job).looksToJudge m fault)) :
    (classify setting job fault).Keeps ok Q E j h := by
  unfold classify
  cases counts : fault.countsAsFailure with
  | false =>
    have judged := judged ⟨false, 0, fun _ => .ok []⟩
    simpa [Context.judge, Context.looksToJudge, counts] using judged
  | true =>
    simp only [Bool.not_true, Bool.false_eq_true, if_false, Stage.keeps_bind, Stage.keeps_get,
      Stage.keeps_act]
    refine Context.keeps_check _ allowed fun m => ?_
    have judged := judged m
    simp only [Context.judge, Context.looksToJudge, counts, if_true] at judged
    cases verdict : (j.plannedContext setting job).verdict m <;> simpa [verdict] using judged

theorem throw_judged {α : Type} {Q : α → Journal → History surroundings → Prop}
    (allowed : ∀ h c, c.Watches → ok h c) {fault : Fault}
    (judged : ∀ m, E ((j.plannedContext setting job).judge m fault) j
      (h ++ (j.plannedContext setting job).looksToJudge m fault)) :
    (classify setting job fault >>= throw : Stage α).Keeps ok Q E j h := by
  rw [Stage.keeps_bind]
  exact keeps_classify setting job allowed judged

theorem keeps_judged {α : Type} {Q : α → Journal → History surroundings → Prop}
    (allowed : ∀ h c, c.Watches → ok h c) {p : Act (Except Fault α)}
    (k : p.Keeps ok (fun r h => match r with
      | .ok a => Q a j h
      | .error fault => ∀ m, E ((j.plannedContext setting job).judge m fault) j
          (h ++ (j.plannedContext setting job).looksToJudge m fault)) h) :
    (classified setting job p).Keeps ok Q E j h := by
  unfold classified
  rw [Stage.keeps_bind, Stage.keeps_act]
  refine k.mono ?_
  rintro (fault | a) h last
  · exact throw_judged setting job allowed last
  · exact last

end

/-!
## The clock of an attempt
-/

def reading : Event surroundings → Option Instant
  | ⟨.now, t⟩ => some t
  | _ => none

/-- Time passes in calls only, and not in reading the clock: where `clock n` is the time when `n`
calls have returned, this is what a reading shows that is the next call. -/
def Timed (clock : Nat → Instant) (h : History surroundings) : Prop :=
  ∀ n < h.length, ∀ t ∈ h[n]?.bind reading, t = clock n

theorem exists_timed (h : History surroundings) : ∃ clock, Timed clock h := by
  refine ⟨fun n => (h[n]?.bind reading).getD 0, fun n _ t read => ?_⟩
  simp only [Option.mem_def.mp read, Option.getD_some]

def Call.countsDocuments : Call → Bool
  | .documentCount => true
  | _ => false

/-- When the local documents had been counted for the first time. -/
def firstCount (clock : Nat → Instant) (h : History surroundings) : Option Instant :=
  (h.findIdx? fun e => e.call.countsDocuments).map fun n => clock (n + 1)

def deadlineFrom (setting : Setting) (job : Job) (counted : Instant) : Option Instant :=
  if job.syncByRevision then setting.settings.attemptTimeout.map (counted + ·.nanos) else none

/-- The deadline is reckoned from the first count of the local documents. -/
def Dated (clock : Nat → Instant) (setting : Setting) (job : Job) (deadline : Option Instant)
    (h : History surroundings) : Prop :=
  Timed clock h → ∃ counted, firstCount clock h = some counted ∧
    deadline = deadlineFrom setting job counted

section
variable {clock : Nat → Instant} {h later : History surroundings}

theorem Timed.prefix (timed : Timed clock (h ++ later)) : Timed clock h := by
  intro n lt t read
  refine timed n (by simp; omega) t ?_
  rwa [List.getElem?_append_left lt]

theorem Timed.last {t : Instant} (timed : Timed clock (h ++ [⟨.now, t⟩])) : t = clock h.length :=
  timed h.length (by simp) t (by simp [reading])

theorem firstCount_append {counted : Instant} (first : firstCount clock h = some counted) :
    firstCount clock (h ++ later) = some counted := by
  obtain ⟨n, found, rfl⟩ := Option.map_eq_some_iff.mp first
  simp [firstCount, List.findIdx?_append, found]

theorem firstCount_of_uncounted (uncounted : ∀ e ∈ h, e.call.countsDocuments = false)
    (r : Except Fault UInt64) :
    firstCount clock (h ++ [⟨.documentCount, r⟩]) = some (clock (h.length + 1)) := by
  have none : h.findIdx? (fun e => e.call.countsDocuments) = none :=
    List.findIdx?_eq_none_iff.mpr uncounted
  have counts : Call.countsDocuments .documentCount = true := rfl
  simp [firstCount, List.findIdx?_append, none, counts]

theorem Dated.append {setting : Setting} {job : Job} {deadline : Option Instant}
    (dated : Dated clock setting job deadline h) :
    Dated clock setting job deadline (h ++ later) := by
  intro timed
  obtain ⟨counted, first, same⟩ := dated timed.prefix
  exact ⟨counted, firstCount_append first, same⟩

end

end FollowerSync.Attempt
