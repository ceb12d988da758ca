import FollowerSync.Proofs.CurrentVersion
import FollowerSync.Proofs.Ranges

set_option autoImplicit false

namespace FollowerSync.Attempt
open Numeric

/-!
## Slices
-/

def passed (slices : List Duration) (k : Nat) : Nat := ((slices.take k).map Duration.nanos).sum

section
variable {total step : Duration} {k : Nat}

theorem passed_zero (slices : List Duration) : passed slices 0 = 0 := rfl

theorem passed_cons (slice : Duration) (rest : List Duration) (k : Nat) :
    passed (slice :: rest) (k + 1) = slice.nanos + passed rest k := rfl

theorem length_slices (total step : Duration) : (slices total step).length =
    total.nanos / step.nanos + if total.nanos % step.nanos = 0 then 0 else 1 := by
  unfold slices
  split <;> simp

theorem lt_length_slices_iff (positive : 0 < step.nanos) :
    k < (slices total step).length ↔ k * step.nanos < total.nanos := by
  have whole := Nat.div_add_mod' total.nanos step.nanos
  have part := Nat.mod_lt total.nanos positive
  rw [length_slices]
  by_cases divided : total.nanos % step.nanos = 0
  · rw [if_pos divided, Nat.add_zero, ← Nat.mul_lt_mul_right positive]
    omega
  · rw [if_neg divided, Nat.lt_succ_iff]
    constructor
    · intro begun
      have := Nat.mul_le_mul_right step.nanos begun
      omega
    · intro before
      by_contra late
      have := Nat.mul_le_mul_right step.nanos (Nat.lt_of_not_le late)
      rw [Nat.succ_mul] at this
      omega

theorem passed_slices (positive : 0 < step.nanos) (begins : k * step.nanos < total.nanos) :
    passed (slices total step) k = k * step.nanos := by
  have within : k ≤ total.nanos / step.nanos := (Nat.le_div_iff_mul_le positive).mpr begins.le
  unfold passed slices
  rw [List.take_append_of_le_length (by simpa using within), List.take_replicate,
    Nat.min_eq_left within, List.map_replicate, List.sum_replicate_nat]

theorem passed_all (total step : Duration) :
    passed (slices total step) (slices total step).length = total.nanos := by
  have whole := Nat.div_add_mod' total.nanos step.nanos
  have left : (Duration.ofNanos (total.nanos % step.nanos)).nanos = total.nanos % step.nanos := by
    refine Nat.min_eq_left ?_
    have := Nat.mod_le total.nanos step.nanos
    have := total.inRange
    omega
  unfold passed
  rw [List.take_length]
  unfold slices
  split <;> simp [left] <;> omega

end

/-!
## The end of a sleep
-/

def ToldBy (told : Option Nat) (t : Nat) : Prop := ∃ s, told = some s ∧ s ≤ t

/-- How a sleep of `total` in steps ends, and at which moment. -/
inductive SleepEnds (told : Option Nat) (began total step : Nat) : Except Fault Unit → Nat → Prop
  | stopped {k : Nat} (begins : k * step < total) (stops : ToldBy told (began + k * step))
      (earlier : ∀ i < k, ¬ToldBy told (began + i * step)) :
      SleepEnds told began total step (.error .shuttingDown) (began + k * step)
  | slept (untold : ∀ i, i * step < total → ¬ToldBy told (began + i * step)) :
      SleepEnds told began total step (.ok ()) (began + total)

section
variable {told : Option Nat} {began total step t : Nat} {r : Except Fault Unit}

theorem existsUnique_sleepEnds (told : Option Nat) (began total step : Nat) :
    ∃! p : Except Fault Unit × Nat, SleepEnds told began total step p.1 p.2 := by
  classical
  by_cases stops : ∃ k, k * step < total ∧ ToldBy told (began + k * step)
  · obtain ⟨begins, seen⟩ := Nat.find_spec stops
    have earlier : ∀ i < Nat.find stops, ¬ToldBy told (began + i * step) := by
      intro i before seen
      have within := Nat.mul_le_mul_right step before.le
      exact Nat.find_min stops before ⟨by omega, seen⟩
    refine ⟨(_, _), .stopped begins seen earlier, ?_⟩
    rintro ⟨r, t⟩ (⟨begins', seen', earlier'⟩ | ⟨untold⟩)
    · rename_i k
      obtain before | rfl | after := Nat.lt_trichotomy k (Nat.find stops)
      · exact absurd seen' (earlier k before)
      · rfl
      · exact absurd seen (earlier' _ after)
    · exact absurd seen (untold _ begins)
  · have untold : ∀ i, i * step < total → ¬ToldBy told (began + i * step) :=
      fun i begins seen => stops ⟨i, begins, seen⟩
    refine ⟨(_, _), .slept untold, ?_⟩
    rintro ⟨r, t⟩ (⟨begins, seen, -⟩ | -)
    · exact absurd seen (untold _ begins)
    · rfl

theorem SleepEnds.le (ends : SleepEnds told began total step r t) : t ≤ began + total := by
  cases ends with
  | stopped begins => omega
  | slept => exact Nat.le_refl _

theorem SleepEnds.soon {s : Nat} (positive : 0 < step) (stops : told = some s)
    (ends : SleepEnds told began total step r t) : t ≤ max began s + step := by
  have later {i : Nat} (unseen : ¬ToldBy told (began + i * step)) : began + i * step < s :=
    Nat.lt_of_not_le fun le => unseen ⟨s, stops, le⟩
  cases ends with
  | @stopped k begins seen earlier =>
    cases k with
    | zero => omega
    | succ k =>
      have := later (earlier k (Nat.lt_succ_self k))
      rw [Nat.succ_mul]
      omega
  | slept untold =>
    -- the last boundary is the last multiple of the step that is less than the total
    by_cases none : total = 0
    · omega
    · have whole := Nat.div_add_mod' (total - 1) step
      have part := Nat.mod_lt (total - 1) positive
      have := later (untold ((total - 1) / step) (by omega))
      omega

end

section
variable {d began t : Nat} {told : Option Nat} {r : Except Fault Unit}

theorem elapses_stopping {seen : Bool} {rest : History surroundings} :
    Elapses d told began (⟨.stopping, seen⟩ :: rest) t ↔
      (seen = true ↔ ToldBy told began) ∧ Elapses d told began rest t := by
  constructor
  · rintro ⟨m, ⟨rfl, truth⟩, later⟩
    exact ⟨truth, later⟩
  · rintro ⟨truth, later⟩
    exact ⟨began, ⟨rfl, truth⟩, later⟩

theorem elapses_sleep {slice : Duration} {u : Unit} {rest : History surroundings} :
    Elapses d told began (⟨.sleep slice, u⟩ :: rest) t ↔
      Elapses d told (began + slice.nanos) rest t := by
  constructor
  · rintro ⟨m, rfl, later⟩
    exact later
  · exact fun later => ⟨_, rfl, later⟩

theorem runs_sleepSlices_cons {slice : Duration} {slices : List Duration} :
    (∃ es, Runs (sleepSlices (slice :: slices)) es r ∧ Elapses d told began es t) ↔
      (ToldBy told began ∧ r = .error .shuttingDown ∧ t = began) ∨
      (¬ToldBy told began ∧
        ∃ es, Runs (sleepSlices slices) es r ∧ Elapses d told (began + slice.nanos) es t) := by
  constructor
  · rintro ⟨es, runs, elapses⟩
    obtain ⟨seen, rest, rfl, goesOn⟩ := Runs.call_iff.mp runs
    obtain ⟨truth, later⟩ := elapses_stopping.mp elapses
    cases seen with
    | true =>
      obtain ⟨rfl, rfl⟩ : rest = [] ∧ r = .error .shuttingDown := Runs.done_iff.mp goesOn
      exact .inl ⟨truth.mp rfl, rfl, later⟩
    | false =>
      obtain ⟨⟨⟩, others, rfl, sleeps⟩ := Runs.call_iff.mp goesOn
      exact .inr ⟨fun seen => Bool.false_ne_true (truth.mpr seen), others, sleeps,
        elapses_sleep.mp later⟩
  · rintro (⟨seen, rfl, rfl⟩ | ⟨unseen, es, runs, elapses⟩)
    · refine ⟨[⟨.stopping, true⟩], .call (.refl _), elapses_stopping.mpr ⟨?_, rfl⟩⟩
      exact iff_of_true rfl seen
    · refine ⟨⟨.stopping, false⟩ :: ⟨.sleep slice, ()⟩ :: es, .call (.call runs),
        elapses_stopping.mpr ⟨?_, elapses_sleep.mpr elapses⟩⟩
      exact iff_of_false Bool.false_ne_true unseen

theorem runs_sleepSlices_iff {slices : List Duration} :
    (∃ es, Runs (sleepSlices slices) es r ∧ Elapses d told began es t) ↔
      (r = .ok () ∧ t = began + passed slices slices.length ∧
        ∀ i < slices.length, ¬ToldBy told (began + passed slices i)) ∨
      (r = .error .shuttingDown ∧ ∃ k < slices.length, t = began + passed slices k ∧
        ToldBy told (began + passed slices k) ∧
        ∀ i < k, ¬ToldBy told (began + passed slices i)) := by
  -- by induction on the slices; after the first one the moments are those of the others, shifted
  induction slices generalizing began with
  | nil =>
    constructor
    · rintro ⟨es, runs, elapses⟩
      obtain ⟨rfl, rfl⟩ := Runs.done_iff.mp runs
      exact .inl ⟨rfl, elapses, nofun⟩
    · rintro (⟨rfl, rfl, -⟩ | ⟨-, k, none, -⟩)
      · exact ⟨[], .refl _, rfl⟩
      · exact absurd none (Nat.not_lt_zero k)
  | cons slice slices ih =>
    rw [runs_sleepSlices_cons, ih]
    simp only [List.length_cons, Nat.forall_lt_succ_left, Nat.exists_lt_succ_left, passed_cons,
      passed_zero, Nat.add_zero, Nat.not_lt_zero, ← Nat.add_assoc]
    by_cases seen : ToldBy told began
    · simp [seen]
    · simp [seen]

end

theorem sleepUnlessStopping_eq {total step : Duration} (positive : 0 < step.nanos) :
    sleepUnlessStopping total step = sleepSlices (slices total step) := by
  have steps : step.isZero = false := decide_eq_false positive.ne'
  unfold sleepUnlessStopping
  by_cases none : total.nanos = 0
  · simp [Duration.isZero, none, slices, sleepSlices]
  · simp [Duration.isZero, none, positive.ne']

theorem runs_sleepUnlessStopping_iff {total step : Duration} (positive : 0 < step.nanos)
    {d began t : Nat} {told : Option Nat} {r : Except Fault Unit} :
    (∃ es, Runs (sleepUnlessStopping total step) es r ∧ Elapses d told began es t) ↔
      SleepEnds told began total.nanos step.nanos r t := by
  have boundary {i : Nat} (begins : i * step.nanos < total.nanos) :
      passed (slices total step) i = i * step.nanos := passed_slices positive begins
  rw [sleepUnlessStopping_eq positive, runs_sleepSlices_iff]
  simp only [lt_length_slices_iff positive, passed_all]
  constructor
  · rintro (⟨rfl, rfl, untold⟩ | ⟨rfl, k, begins, rfl, seen, earlier⟩)
    · refine .slept fun i begins => ?_
      rw [← boundary begins]
      exact untold i begins
    · rw [boundary begins] at seen ⊢
      refine .stopped begins seen fun i before => ?_
      have within := Nat.mul_le_mul_right step.nanos before.le
      rw [← boundary (by omega)]
      exact earlier i before
  · rintro (@⟨k, begins, seen, earlier⟩ | untold)
    · refine .inr ⟨rfl, k, begins, ?_, ?_, fun i before => ?_⟩
      · rw [boundary begins]
      · rwa [boundary begins]
      · have within := Nat.mul_le_mul_right step.nanos before.le
        rw [boundary (by omega)]
        exact earlier i before
    · refine .inl ⟨rfl, rfl, fun i begins => ?_⟩
      rw [boundary begins]
      exact untold i begins

theorem sleepUnlessStopping_answerable {total step : Duration} (positive : 0 < step.nanos) :
    (sleepUnlessStopping total step).Uses Call.Answerable := by
  rw [sleepUnlessStopping_eq positive]
  generalize slices total step = slices
  induction slices with
  | nil => trivial
  | cons slice slices ih => simp [sleepSlices, Call.Answerable, ih]

/-- What a sleep comes to: it ends whenever its calls are answered, where the first boundary at
which a stop is seen says, and that is never late. -/
structure SleepLaw (total step : Duration) (d : Nat) (told : Option Nat) (began : Nat) : Prop where
  returns (rule : History surroundings → (c : Call) → Option c.Reply) :
    (∀ h (c : Call), c.Answerable → (rule h c).isSome) →
    ((sleepUnlessStopping total step).play (Program.noting (S := surroundings) rule) []).2.isSome
  ends (r : Except Fault Unit) (t : Nat) :
    (∃ es, Runs (sleepUnlessStopping total step) es r ∧ Elapses d told began es t) ↔
      SleepEnds told began total.nanos step.nanos r t
  once : ∃! p : Except Fault Unit × Nat, SleepEnds told began total.nanos step.nanos p.1 p.2
  inTime (r : Except Fault Unit) (t : Nat) : SleepEnds told began total.nanos step.nanos r t →
    t ≤ began + total.nanos ∧ ∀ s, told = some s → t ≤ max began s + step.nanos

theorem sleepLaw {total step : Duration} (positive : 0 < step.nanos) (d : Nat)
    (told : Option Nat) (began : Nat) : SleepLaw total step d told began where
  returns _ answers := (sleepUnlessStopping_answerable positive).plays answers []
  ends _ _ := runs_sleepUnlessStopping_iff positive
  once := existsUnique_sleepEnds told began total.nanos step.nanos
  inTime _ _ ends := ⟨ends.le, fun _ stops => ends.soon positive stops⟩

/-!
## Failures delay what comes next
-/

theorem atMost_min {x y : Binary64} {a b : Nat} (first : x.AtMost a) (second : y.AtMost b) :
    (x.min y).AtMost a := by
  unfold Binary64.min
  split
  · rename_i less
    have lower : y.magnitude < x.magnitude := by
      simpa [Binary64.lt, Binary64.rank, first.positive, second.positive, first.not_nan,
        second.not_nan] using less
    refine ⟨second.positive, second.finite, ?_⟩
    exact (Binary64.unitsOf_le_unitsOf lower.le first.finite.le).trans first.units_le
  · exact first

theorem exists_backoffDelay {failures threshold : Nat} (reached : threshold ≤ failures)
    (fits : BackoffFits failures threshold) (cap : Duration) :
    ∃ delay, backoffDelay failures threshold cap = some delay := by
  replace fits := fits reached
  have pos := Binary64.one_pos
  have tenth : (Binary64.ofRatio false 1 10).AtMost (Binary64.one / 9) :=
    ⟨by decide +kernel, by decide +kernel, by decide +kernel⟩
  have two : (Binary64.ofNat 2).AtMost (4 * Binary64.one) :=
    Binary64.atMost_ofRatio Nat.one_pos (by omega) (by omega)
  have counted : (Binary64.ofNat (triangle failures)).AtMost (2 ^ 64 * Binary64.one) := by
    refine Binary64.atMost_ofRatio Nat.one_pos ?_ (by omega)
    have small : 2 * triangle failures ≤ 2 ^ 64 := by
      unfold triangle UInt64.size at *
      omega
    have := Nat.mul_le_mul_right Binary64.one small
    rw [Nat.mul_assoc] at this
    omega
  have product : ((Binary64.ofRatio false 1 10).mul (.ofNat (triangle failures))).AtMost
      (2 ^ 65 * (Binary64.one / 9)) :=
    tenth.mul counted (Nat.le_of_eq (by ring)) (by omega)
  have sum : ((Binary64.ofNat 2).add
      ((Binary64.ofRatio false 1 10).mul (.ofNat (triangle failures)))).AtMost
      (8 * Binary64.one + 2 ^ 66 * (Binary64.one / 9)) :=
    two.add product (by omega) (by omega)
  unfold backoffDelay backoffSeconds
  rw [if_neg (Nat.not_lt.mpr reached)]
  refine Option.isSome_iff_exists.mp
    (Duration.ofSeconds?_isSome (atMost_min sum cap.toSeconds_atMost) ?_)
  unfold UInt64.size
  omega

/-- Calls by which somebody is asked: the cluster, a leader, or the local replica. -/
def Call.Consults : Call → Prop
  | .upkeep _ | .stopping | .now | .sleep _ | .suspend _ | .draw | .halt _ => False
  | _ => True

def rest (setting : Setting) (failures : Nat) : Act (Except Fault Unit) :=
  let threshold := setting.settings.backoffFailureThreshold.toNat
  if ¬BackoffFits failures threshold then stop .outOfRange
  else match backoffDelay failures threshold setting.settings.backoffMax with
    | none => return .ok ()
    | some delay => sleepUnlessStopping delay setting.settings.backoffStep

theorem rest_of_le (setting : Setting) {failures : Nat}
    (reached : setting.settings.backoffFailureThreshold.toNat ≤ failures) :
    (∃ delay, backoffDelay failures setting.settings.backoffFailureThreshold.toNat
        setting.settings.backoffMax = some delay ∧
      rest setting failures = sleepUnlessStopping delay setting.settings.backoffStep) ∨
    (UInt64.size ≤ failures * (failures + 1) ∧ rest setting failures = stop .outOfRange) := by
  by_cases fits : BackoffFits failures setting.settings.backoffFailureThreshold.toNat
  · obtain ⟨delay, found⟩ := exists_backoffDelay reached fits setting.settings.backoffMax
    refine .inl ⟨delay, found, ?_⟩
    simp only [rest, if_neg (not_not_intro fits), found]
  · exact .inr ⟨Nat.le_of_not_lt fun few => fits fun _ => few, if_pos fits⟩

theorem delayAfterFailures_eq (setting : Setting) (job : Job) : delayAfterFailures setting job =
    .call (S := surroundings) (.upkeep (.failures job.key)) (rest setting) := by
  simp only [delayAfterFailures, ask_eq, Program.bind_eq, Program.bind_call, Program.bind_done,
    stop_bind]
  rfl

theorem sleepSlices_interrupted {slices : List Duration} {es : History surroundings}
    {fault : Fault} (runs : Runs (sleepSlices slices) es (.error fault)) :
    ∃ before, es = before ++ [⟨.stopping, true⟩] := by
  induction slices generalizing es with
  | nil => simp [sleepSlices] at runs
  | cons slice slices ih =>
    obtain ⟨seen, others, rfl, goesOn⟩ := Runs.call_iff.mp runs
    cases seen with
    | true =>
      obtain ⟨rfl, -⟩ := Runs.done_iff.mp goesOn
      exact ⟨[], rfl⟩
    | false =>
      obtain ⟨⟨⟩, later, rfl, sleeps⟩ := Runs.call_iff.mp goesOn
      obtain ⟨before, rfl⟩ := ih sleeps
      exact ⟨⟨.stopping, false⟩ :: ⟨.sleep slice, ()⟩ :: before, rfl⟩

theorem sleepUnlessStopping_interrupted {total step : Duration} {es : History surroundings}
    {fault : Fault} (runs : Runs (sleepUnlessStopping total step) es (.error fault)) :
    ∃ before, es = before ++ [⟨.stopping, true⟩] := by
  by_cases positive : 0 < step.nanos
  · rw [sleepUnlessStopping_eq positive] at runs
    exact sleepSlices_interrupted runs
  -- in steps of nothing the server is looked at once
  · have none : step.isZero = true := decide_eq_true (by omega)
    simp only [sleepUnlessStopping, none, if_true] at runs
    split at runs
    · simp at runs
    · obtain ⟨seen, others, rfl, goesOn⟩ := Runs.call_iff.mp runs
      cases seen with
      | true =>
        obtain ⟨rfl, -⟩ := Runs.done_iff.mp goesOn
        exact ⟨[], rfl⟩
      | false =>
        obtain ⟨answer, -⟩ := Runs.call_iff.mp goesOn
        cases answer

theorem rest_interrupted {setting : Setting} {failures : Nat} {es : History surroundings}
    {fault : Fault} (runs : Runs (rest setting failures) es (.error fault)) :
    ∃ before, es = before ++ [⟨.stopping, true⟩] := by
  simp only [rest] at runs
  split at runs
  · obtain ⟨answer, -⟩ := Runs.call_iff.mp runs
    exact nomatch answer
  · split at runs
    · simp at runs
    · exact sleepUnlessStopping_interrupted runs

section
variable (setting : Setting) (job : Job)

/-- The failures were read, and the sleep after them is over; it has ended like this. -/
def Slept (r : Except Fault Unit) (after h : History surroundings) : Prop :=
  ∃ (began : Instant) (n : Nat) (slept : History surroundings),
    h = ⟨.now, began⟩ :: ⟨.upkeep (.failures job.key), n⟩ :: (slept ++ after) ∧
      Runs (rest setting n) slept r

def Awake (h : History surroundings) : Prop := ∃ r after, Slept setting job r after h

/-- The sleep is over, and if it failed, the server was later found not to be stopping. -/
def Rested (h : History surroundings) : Prop :=
  ∃ r after, Slept setting job r after h ∧ (r = .ok () ∨ ⟨.stopping, false⟩ ∈ after)

/-- Nobody is consulted before that, unless the job is refused. -/
def ConsultLaw (h : History surroundings) (c : Call) : Prop :=
  c.Consults → Rested setting job h ∨ ∃ fault, job.validate = .error fault

variable {setting job} {h : History surroundings} {r : Except Fault Unit}
  {after : History surroundings}

theorem Slept.append (slept : Slept setting job r after h) (later : History surroundings) :
    Slept setting job r (after ++ later) (h ++ later) := by
  obtain ⟨began, n, es, rfl, runs⟩ := slept
  exact ⟨began, n, es, by simp, runs⟩

theorem Rested.append (rested : Rested setting job h) (later : History surroundings) :
    Rested setting job (h ++ later) := by
  obtain ⟨r, after, slept, fine⟩ := rested
  exact ⟨r, after ++ later, slept.append later, fine.imp_right (List.mem_append_left later)⟩

theorem Rested.awake (rested : Rested setting job h) : Awake setting job h := by
  obtain ⟨r, after, slept, -⟩ := rested
  exact ⟨r, after, slept⟩

theorem rested_stable :
    Stage.Stable (ConsultLaw setting job) (fun _ => True) fun _ => Rested setting job where
  allowed := fun _ _ _ rested _ _ => .inl rested
  kept := fun _ _ _ _ rested _ => rested.append _

theorem Rested.keeps {α : Type} (rested : Rested setting job h) (p : Act α) :
    p.Keeps (ConsultLaw setting job) (fun _ => Rested setting job) h :=
  p.uses_anything.keeps (rested_stable.allowed {}) (rested_stable.kept {}) rested

theorem awake_stable : Stage.Stable (ConsultLaw setting job) (fun c => ¬c.Consults)
    fun _ => Awake setting job where
  allowed := fun _ _ _ _ silent asked => absurd asked silent
  kept := by
    rintro _ h c answer ⟨r, after, slept⟩ -
    exact ⟨r, after ++ [⟨c, answer⟩], slept.append _⟩

theorem fetchVersion_consults (awake : Awake setting job h) (limit : Duration) (stopAt : Instant)
    (tries fuel : Nat) (found : Option UInt64 → Act Unit) (nothing : found none = .done ()) :
    ((fetchVersion limit stopAt tries fuel).bind found).Keeps (ConsultLaw setting job)
      (fun _ => Awake setting job) h := by
  cases fuel with
  | zero =>
    change (found none).Keeps _ _ _
    rwa [nothing]
  | succ fuel =>
    refine ⟨awake_stable.allowed {} _ _ awake id, fun seen => ?_⟩
    obtain ⟨r, after, slept⟩ := awake
    cases seen with
    | true =>
      change (found none).Keeps _ _ _
      rw [nothing]
      exact ⟨r, _, slept.append _⟩
    | false =>
      have rested : Rested setting job (h ++ [⟨.stopping, false⟩]) :=
        ⟨r, _, slept.append _, .inr (by simp)⟩
      exact (rested.keeps _).mono fun _ _ rested => rested.awake

theorem awaitCurrentVersion_consults (awake : Awake setting job h) (wait : Duration) :
    (awaitCurrentVersion wait).Keeps (ConsultLaw setting job) (fun _ => Awake setting job) h := by
  obtain ⟨limit, tenth⟩ := exists_fetchLimit wait
  rw [awaitCurrentVersion_eq tenth]
  refine ⟨awake_stable.allowed {} _ _ awake id, fun start => ?_⟩
  have awake := awake_stable.kept {} _ .now start awake id
  rw [Program.keeps_ite]
  refine ⟨fun _ => ?unreached, fun _ => ?reached⟩
  case unreached =>
    exact awake_stable.keeps (j := {}) ((uses_stop _).mpr id) awake
  case reached =>
    exact fetchVersion_consults awake limit _ 0 _ _ rfl

theorem concludes_of_awake {began : Instant} {fault : Option Fault} {j : Journal}
    (awake : Awake setting job h) :
    Concludes (ConsultLaw setting job) (fun _ _ => True) setting job began fault j h := by
  have records : (recordOutcome job fault).Uses fun c : Call => ¬c.Consults := by
    cases fault <;> simp [recordOutcome, Call.Consults]
  have ends {h : History surroundings} {c : Call} (silent : ¬c.Consults) :
      ConsultLaw setting job h c := fun asked => absurd asked silent
  unfold Concludes close
  rw [Program.bind_eq, Program.keeps_bind]
  refine (awake_stable.keeps (j := {}) records awake).mono fun _ h awake => ?_
  rw [Program.keeps_ite]
  refine ⟨fun _ => ?_, fun _ => ⟨ends id, fun _ => trivial⟩⟩
  rw [Program.bind_eq, Program.keeps_bind]
  refine (awaitCurrentVersion_consults awake _).mono fun _ h awake => ?_
  exact ⟨ends id, fun _ => ⟨ends id, fun _ => ⟨ends id, fun _ => trivial⟩⟩⟩

theorem standBy_rests {fine : Unit} (valid : job.validate = .ok fine) (began : Instant) :
    (standBy setting job).Keeps (ConsultLaw setting job) (fun _ _ => Rested setting job)
      (fun _ _ => Awake setting job) {} [⟨.now, began⟩] := by
  have silent : (delayAfterFailures setting job).Uses fun c : Call => ¬c.Consults :=
    (delayAfterFailures_delays setting job).mono fun c delays asked => by
      cases c <;> first | exact asked | exact delays
  simp only [standBy, Stage.keeps_bind, Stage.keeps_enter, Stage.keeps_attempt]
  rw [valid]
  refine (silent.keeps_runs fun h c silent asked => absurd asked silent).mono ?_
  rintro r _ ⟨es, rfl, runs⟩
  have slept : Slept setting job r [] ([⟨.now, began⟩] ++ es) := by
    rw [delayAfterFailures_eq] at runs
    obtain ⟨n, slept, rfl, rests⟩ := Runs.call_iff.mp runs
    exact ⟨began, n, slept, by simp, rests⟩
  cases r with
  | error fault => exact ⟨_, _, slept⟩
  | ok _ =>
    have rested : Rested setting job ([⟨.now, began⟩] ++ es) := ⟨_, _, slept, .inl rfl⟩
    refine (rested.keeps (waitForLeader setting job setting.patience)).mono ?_
    rintro (fault | _) h rested
    · exact rested.awake
    · exact rested

theorem run_refused {fault : Fault} (refused : job.validate = .error fault) :
    (run setting job).Uses (Call.Closes job) := by
  rw [run_eq]
  refine ⟨trivial, fun began => ?_⟩
  have failed : (work setting job).run.run {} = .done (.error fault, {}) := by
    unfold work
    rw [refused]
    rfl
  rw [failed]
  exact (close_uses setting job _).bind fun _ => ⟨trivial, fun _ => trivial⟩

theorem failures_unread {fault : Fault} (refused : job.validate = .error fault)
    {es : History surroundings} {q : Act Report} (steps : Steps (run setting job) es q) (n : Nat) :
    ⟨.upkeep (.failures job.key), n⟩ ∉ es := by
  intro mem
  have closes : Call.Closes job (.upkeep (.failures job.key)) :=
    (run_refused refused).called steps _ mem
  simp [Call.Closes] at closes

theorem run_keeps_consultLaw (setting : Setting) (job : Job) :
    (run setting job).Keeps (ConsultLaw setting job) (fun _ _ => True) [] := by
  cases valid : job.validate with
  | error fault =>
    exact Program.keeps_of_forall (fun _ _ _ => .inr ⟨fault, valid⟩) fun _ _ => trivial
  | ok _ =>
    rw [keeps_run, work_eq]
    refine ⟨fun asked => asked.elim, fun began => ?_⟩
    rw [Stage.keeps_bind]
    refine (standBy_rests valid began).mono (fun _ j h rested => ?_)
      fun _ _ _ awake => concludes_of_awake awake
    exact (Stage.Uses.preserves (fun j => Program.uses_anything _) rested_stable j h rested).mono
      (fun _ _ _ rested => concludes_of_awake rested.awake)
      fun _ _ _ rested => concludes_of_awake rested.awake

theorem stopping_seen {d t t' : Nat} {told : Option Nat} {later : History surroundings}
    (elapses : Elapses d told t (⟨.stopping, true⟩ :: later) t') : ⟨.stopping, false⟩ ∉ later := by
  intro mem
  obtain ⟨before, others, rfl⟩ := List.append_of_mem mem
  obtain ⟨m, ⟨rfl, seen⟩, elapses⟩ := elapses
  obtain ⟨m', early, -, ⟨-, unseen⟩, -⟩ := elapses_append.mp elapses
  obtain ⟨s, stops, le⟩ := seen.mp rfl
  exact Bool.false_ne_true (unseen.mpr ⟨s, stops, le.trans early.le⟩)

theorem Slept.unique {r' : Except Fault Unit} {after' later : History surroundings}
    (slept : Slept setting job r after h) (slept' : Slept setting job r' after' (h ++ later)) :
    r' = r ∧ after' = after ++ later := by
  obtain ⟨began, n, es, rfl, runs⟩ := slept
  obtain ⟨began', n', es', same, runs'⟩ := slept'
  simp only [List.cons_append, List.append_assoc, List.cons.injEq, Event.mk.injEq, heq_eq_eq,
    true_and] at same
  obtain ⟨rfl, rfl, same⟩ := same
  obtain ⟨rfl, rfl⟩ := runs.eq_of_append_eq runs' same
  exact ⟨rfl, (List.append_cancel_left same).symm⟩

/-- An attempt whose sleep was cut short consults nobody, before or after. -/
theorem interrupted_silent {d began t : Nat} {told : Option Nat} {es : History surroundings}
    {q : Act Report} {fault : Fault} (steps : Steps (run setting job) es q)
    (elapses : Elapses d told began es t) (slept : Slept setting job (.error fault) after es)
    {e : Event surroundings} (mem : e ∈ es) : ¬e.call.Consults := by
  intro asked
  obtain ⟨before, later, rfl⟩ := List.append_of_mem mem
  obtain ⟨next, earlier⟩ := steps.before
  obtain ⟨r', after', slept', fine⟩ | ⟨_, refused⟩ :=
    (run_keeps_consultLaw setting job).allowed earlier asked
  · obtain ⟨same, -⟩ := slept'.unique slept
    obtain rfl : r' = .error fault := same.symm
    have unseen : ⟨.stopping, false⟩ ∈ after' := fine.resolve_left nofun
    obtain ⟨_, _, _, rfl, runs⟩ := slept'
    obtain ⟨early, rfl⟩ := rest_interrupted runs
    obtain ⟨_, -, _, -, awoken⟩ := elapses
    change Elapses d told _ (early ++ [⟨.stopping, true⟩] ++ after' ++ e :: later) t at awoken
    rw [List.append_assoc, List.append_assoc] at awoken
    obtain ⟨m, -, seen⟩ := elapses_append.mp awoken
    change Elapses _ _ _ (⟨.stopping, true⟩ :: (after' ++ e :: later)) _ at seen
    exact stopping_seen seen (List.mem_append_left _ unseen)
  · obtain ⟨_, n, _, same, -⟩ := slept
    refine failures_unread refused steps n ?_
    rw [same]
    simp

end

/-- A sleep ends where the first slice begins at which a stop is seen, and otherwise after all of
its time. An attempt consults nobody before the sleep after failures is over, and nobody at all if
it was cut short. From the threshold on there is such a sleep, unless the failures are so many that
the attempt breaks off instead. -/
theorem sleep_ends_where_a_stop_is_seen (setting : Setting) (job : Job) :
    (∀ total step : Duration, 0 < step.nanos → ∀ d told began,
      SleepLaw total step d told began) ∧
    (∀ n : Nat, setting.settings.backoffFailureThreshold.toNat ≤ n →
      (∃ delay, backoffDelay n setting.settings.backoffFailureThreshold.toNat
          setting.settings.backoffMax = some delay ∧
        rest setting n = sleepUnlessStopping delay setting.settings.backoffStep) ∨
      (UInt64.size ≤ n * (n + 1) ∧ rest setting n = stop .outOfRange)) ∧
    (∀ es c next, Steps (run setting job) es (.call c next) → c.Consults →
      Rested setting job es ∨ (∃ fault, job.validate = .error fault) ∧
        ∀ n : Nat, ⟨.upkeep (.failures job.key), n⟩ ∉ es) ∧
    ∀ d told began t es q fault after, Steps (run setting job) es q →
      Elapses d told began es t → Slept setting job (.error fault) after es →
      ∀ e ∈ es, ¬e.call.Consults := by
  refine ⟨fun _ _ positive d told began => sleepLaw positive d told began,
    fun _ reached => rest_of_le setting reached, fun es c next steps asked => ?_,
    fun _ _ _ _ _ _ _ _ steps elapses slept _ mem => interrupted_silent steps elapses slept mem⟩
  rcases (run_keeps_consultLaw setting job).allowed steps asked with rested | ⟨fault, refused⟩
  · exact .inl rested
  · exact .inr ⟨⟨fault, refused⟩, fun n => failures_unread refused steps n⟩

section
variable {setting : Setting} {job : Job}

theorem steps_attempt {α β : Type} {p q : Act (Except Fault α)} {es : History surroundings}
    (steps : Steps p es q) (f : α → Stage β) (j : Journal) :
    ∃ q, Steps ((Stage.attempt p >>= f).run.run j) es q := by
  unfold Stage.attempt
  rw [bind_assoc, ExceptT.run_bind, StateT.run_bind, Stage.run_act]
  exact ⟨_, (steps.bind _).bind _⟩

theorem steps_delay {fine : Unit} (valid : job.validate = .ok fine) {es : History surroundings}
    {p : Act (Except Fault Unit)} (steps : Steps (delayAfterFailures setting job) es p)
    (began : Instant) : ∃ q, Steps (run setting job) (⟨.now, began⟩ :: es) q := by
  have works : ∃ q, Steps ((work setting job).run.run {}) es q := by
    unfold work synchronize
    rw [valid]
    exact steps_attempt steps _ _
  obtain ⟨q, works⟩ := works
  rw [run_eq]
  exact ⟨_, .call (works.bind _)⟩

end

def briefRest : History surroundings :=
  [⟨.stopping, false⟩, ⟨.sleep (.ofSecs 1), ()⟩, ⟨.stopping, true⟩]

theorem rested_briefly (resting : Runs (rest calmSetting 4) briefRest (.error .shuttingDown)) :
    (∃ q, Steps (run calmSetting calmJob)
      (⟨.now, (0 : Nat)⟩ :: ⟨.upkeep (.failures calmJob.key), (4 : Nat)⟩ :: briefRest) q) ∧
    Slept calmSetting calmJob (.error .shuttingDown) []
      (⟨.now, (0 : Nat)⟩ :: ⟨.upkeep (.failures calmJob.key), (4 : Nat)⟩ :: briefRest) := by
  have waits : Steps (delayAfterFailures calmSetting calmJob)
      (⟨.upkeep (.failures calmJob.key), (4 : Nat)⟩ :: briefRest) (.done (.error .shuttingDown)) := by
    rw [delayAfterFailures_eq]
    exact .call resting
  have valid : calmJob.validate = .ok () := rfl
  refine ⟨steps_delay valid waits (0 : Nat), (0 : Nat), (4 : Nat), briefRest, ?_, resting⟩
  rw [List.append_nil]

theorem briefRest_elapses : Elapses 0 (some nanosPerSecond) 0
    (⟨.now, (0 : Nat)⟩ :: ⟨.upkeep (.failures calmJob.key), (4 : Nat)⟩ :: briefRest)
    nanosPerSecond := by
  have untold : ¬ToldBy (some nanosPerSecond) 0 := by simp [ToldBy, nanosPerSecond]
  refine ⟨0, ⟨rfl, rfl⟩, 0, Nat.le_refl 0, elapses_stopping.mpr ⟨by simp [untold], ?_⟩⟩
  exact elapses_sleep.mpr (elapses_stopping.mpr ⟨iff_of_true rfl ⟨_, rfl, by decide⟩, rfl⟩)

theorem five_seconds_in_steps_of_two :
    (∃ es, Runs (sleepUnlessStopping (.ofSecs 5) (.ofSecs 2)) es (.error .shuttingDown) ∧
      Elapses 0 (some (3 * nanosPerSecond)) 0 es (4 * nanosPerSecond)) ∧
    (∃ es, Runs (sleepUnlessStopping (.ofSecs 5) (.ofSecs 2)) es (.ok ()) ∧
      Elapses 0 (some (5 * nanosPerSecond - 1)) 0 es (5 * nanosPerSecond)) ∧
    backoffDelay 4 4 (.ofSecs 15) = some (.ofSecs 3) ∧
    rest calmSetting 4 = sleepUnlessStopping (.ofSecs 3) (.ofSecs 1) ∧
    ∃ q, Steps (run calmSetting calmJob)
        (⟨.now, (0 : Nat)⟩ :: ⟨.upkeep (.failures calmJob.key), (4 : Nat)⟩ :: briefRest) q ∧
      ∀ e ∈ briefRest, ¬e.call.Consults := by
  obtain ⟨sleeps, reached, -, silent⟩ := sleep_ends_where_a_stop_is_seen calmSetting calmJob
  have inSteps := sleeps (.ofSecs 5) (.ofSecs 2) (by decide) 0
  have two : (Duration.ofSecs 2).nanos = 2000000000 := rfl
  have five : (Duration.ofSecs 5).nanos = 5000000000 := rfl
  have delay : backoffDelay 4 4 (.ofSecs 15) = some (.ofSecs 3) := by decide +kernel
  have sleep : rest calmSetting 4 = sleepUnlessStopping (.ofSecs 3) (.ofSecs 1) := by
    rcases reached 4 (by decide) with ⟨_, found, same⟩ | ⟨many, -⟩
    · obtain rfl := Option.some.inj (found.symm.trans delay)
      exact same
    · exact absurd many (by decide)
  refine ⟨(inSteps _ 0).ends _ _ |>.mpr ?stopped, (inSteps _ 0).ends _ _ |>.mpr ?slept,
    delay, sleep, ?resting⟩
  case stopped =>
    refine SleepEnds.stopped (k := 2) (by decide) ⟨_, rfl, by decide⟩ fun i before => ?_
    rintro ⟨s, same, le⟩
    obtain rfl := Option.some.inj same
    rw [two, nanosPerSecond] at le
    omega
  case slept =>
    refine SleepEnds.slept fun i begins => ?_
    rintro ⟨s, same, le⟩
    obtain rfl := Option.some.inj same
    rw [two, five] at *
    rw [nanosPerSecond] at le
    omega
  case resting =>
    have resting : Runs (rest calmSetting 4) briefRest (.error .shuttingDown) := by
      rw [sleep]
      exact .call (.call (.call (.refl _)))
    obtain ⟨⟨q, steps⟩, slept⟩ := rested_briefly resting
    exact ⟨q, steps, fun e mem => silent 0 _ 0 _ _ q .shuttingDown [] steps briefRest_elapses slept
      e (by simp [mem])⟩

end FollowerSync.Attempt
