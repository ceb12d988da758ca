import FollowerSync.Proofs.Footprints
import FollowerSync.Proofs.Roundings

/-!
# The current version is fetched in good time

How long the fetching of the current version can take is said for all surroundings in which a fetch
takes no longer than `d` and a task that is suspended is polled again when one of its wakers goes
off.
-/

set_option autoImplicit false

namespace FollowerSync.Attempt

/-!
## The time that calls take
-/

section
variable (d : Nat) (told : Option Nat)

/-- The waker is sure to go off at a moment. -/
def Waker.GoesOff (m : Nat) : Waker → Prop
  | .due moment => moment = m
  | .stopping => told = some m
  | .loading => False

/-- A call that is made at the moment `t` is answered at the moment `t'`. A look at the clock, or at
whether the server stops, takes no time and finds what is so; the server was told at the moment
`told`, if at all. A poll takes no time either. A fetch takes at most `d`, and a pause what it is to
take. A suspension lasts no longer than until a waker goes off; when it ends before, nothing is
known. -/
def Passes (t t' : Nat) : Event surroundings → Prop
  | ⟨.stopping, answer⟩ => t' = t ∧ (answer = true ↔ ∃ s, told = some s ∧ s ≤ t)
  | ⟨.now, answer⟩ => t' = t ∧ answer = t
  | ⟨.awaitVersion .., _⟩ => t' = t
  | ⟨.draw, _⟩ => t' = t
  | ⟨.fetchVersion _, _⟩ => t ≤ t' ∧ t' ≤ t + d
  | ⟨.sleep pause, _⟩ => t' = t + pause.nanos
  | ⟨.suspend wakers, _⟩ =>
    t ≤ t' ∧ ∀ waker ∈ wakers, ∀ m, waker.GoesOff told m → t' ≤ max t m
  | _ => t ≤ t'

theorem Passes.le {t t' : Nat} {e : Event surroundings} (passes : Passes d told t t' e) :
    t ≤ t' := by
  obtain ⟨c, r⟩ := e
  cases c with
  | stopping => exact passes.1.ge
  | now => exact passes.1.ge
  | sleep pause => exact passes.ge.trans' (Nat.le_add_right ..)
  | fetchVersion limit => exact passes.1
  | suspend wakers => exact passes.1
  | awaitVersion version polls => exact passes.ge
  | draw => exact passes.ge
  | _ => exact passes

/-- The calls of a history are made one after the other, from the moment `t` to the moment `t'`. -/
def Elapses (t : Nat) : History surroundings → Nat → Prop
  | [], t' => t' = t
  | e :: h, t' => ∃ m, Passes d told t m e ∧ Elapses m h t'

variable {d told}

theorem elapses_append {t t' : Nat} {h later : History surroundings} :
    Elapses d told t (h ++ later) t' ↔ ∃ m, Elapses d told t h m ∧ Elapses d told m later t' := by
  induction h generalizing t with
  | nil => simp [Elapses]
  | cons e h ih =>
    simp only [List.cons_append, Elapses, ih]
    constructor
    · rintro ⟨m, passes, m', early, late⟩
      exact ⟨m', ⟨m, passes, early⟩, late⟩
    · rintro ⟨m', ⟨m, passes, early⟩, late⟩
      exact ⟨m, passes, m', early, late⟩

theorem Elapses.le {t t' : Nat} {h : History surroundings} (elapses : Elapses d told t h t') :
    t ≤ t' := by
  induction h generalizing t with
  | nil => exact Nat.le_of_eq elapses.symm
  | cons e h ih =>
    obtain ⟨m, passes, later⟩ := elapses
    exact passes.le.trans (ih later)

theorem elapses_concat {t t' : Nat} {h : History surroundings} {e : Event surroundings} :
    Elapses d told t (h ++ [e]) t' ↔ ∃ m, Elapses d told t h m ∧ Passes d told m t' e := by
  simp [elapses_append, Elapses]

end

section
variable (d : Nat) (told : Option Nat) (began : Nat)

def Timely (P : Nat → Prop) (h : History surroundings) : Prop :=
  ∀ t, Elapses d told began h t → P t

variable {d told began}

theorem Timely.mono {P Q : Nat → Prop} {h : History surroundings}
    (timely : Timely d told began P h) (weaker : ∀ t, P t → Q t) : Timely d told began Q h :=
  fun t elapses => weaker t (timely t elapses)

theorem Timely.concat {P Q : Nat → Prop} {h : History surroundings} {e : Event surroundings}
    (timely : Timely d told began P h) (passes : ∀ t t', P t → Passes d told t t' e → Q t') :
    Timely d told began Q (h ++ [e]) := by
  intro t' elapses
  obtain ⟨t, early, last⟩ := elapses_concat.mp elapses
  exact passes t t' (timely t early) last

end

/-!
## Fetches and pauses
-/

inductive Pace where
  | fetch
  | pause (length : Nat)
  | load (polls : Nat)
  deriving DecidableEq

def pace : Event surroundings → Option Pace
  | ⟨.fetchVersion _, _⟩ => some .fetch
  | ⟨.sleep length, _⟩ => some (.pause length.nanos)
  | ⟨.awaitVersion _ polls, _⟩ => some (.load polls)
  | _ => none

/-- So many fetches, each with its pause: 100 ms after the first one, then 100 ms more each time,
but never more than 2 s. -/
def rounds (n : Nat) : List Pace :=
  (List.range n).flatMap fun k =>
    [.fetch, .pause (min ((k + 1) * (100 * nanosPerMilli)) (2 * nanosPerSecond))]

/-- Fetches and pauses take turns, and what follows the last fetch is one wait for a version, which
is polled so often. -/
def InPace (h : History surroundings) : Prop :=
  ∃ n polls, marks pace h <+: rounds n ++ .fetch :: (List.range polls).map .load

def fetched : Event surroundings → Option (Except Fault UInt64)
  | ⟨.fetchVersion _, answer⟩ => some answer
  | _ => none

theorem snooze_nanos (tries : Nat) :
    (snooze tries).nanos = min ((tries + 1) * (100 * nanosPerMilli)) (2 * nanosPerSecond) := by
  have step : snoozeStep.nanos = 100 * nanosPerMilli := rfl
  have longest : longestSnooze.nanos = 2 * nanosPerSecond := rfl
  have fits : 2 * nanosPerSecond ≤ UInt64.size * nanosPerSecond - 1 := by decide
  unfold snooze Duration.ofNanos
  rw [step, longest]
  exact Nat.min_eq_left ((Nat.min_le_right _ _).trans fits)

theorem rounds_succ (n : Nat) :
    rounds (n + 1) = rounds n ++ [.fetch, .pause (snooze n).nanos] := by
  simp [rounds, List.range_succ, snooze_nanos]

theorem load_not_mem_rounds (n polls : Nat) : .load polls ∉ rounds n ++ [.fetch] := by
  simp [rounds]

/-!
## A wait in good time
-/

section
variable (wait : Duration) (d : Nat) (told : Option Nat) (began : Nat)

/-- A moment from which on the wait is given up: its time is over, or the server is told to stop. -/
def GivesUpAt (e : Nat) : Prop := e = began + wait.nanos ∨ told = some e

def Early (t : Nat) : Prop := ∀ e, GivesUpAt wait told began e → t < e

/-- The wait has not gone on for longer than a fetch and a pause after it was to be given up. -/
def Prompt (t : Nat) : Prop :=
  ∀ e, GivesUpAt wait told began e → t ≤ max began e + d + 2 * nanosPerSecond

/-- A fetch is begun, and the task suspended, before the wait is given up. -/
def InTime (t : Nat) : Call → Prop
  | .fetchVersion _ | .suspend _ => Early wait told began t
  | _ => True

/-- From any poll of the wait for a version on, the wait is over when it is given up. -/
def Abandons (h : History surroundings) : Prop :=
  ∀ (before after : History surroundings) (version : UInt64) (polls : Nat)
    (answer : Option (Except Fault Unit)),
    h = before ++ ⟨.awaitVersion version polls, answer⟩ :: after →
    ∀ t t', Elapses d told began before t →
      Elapses d told t (⟨.awaitVersion version polls, answer⟩ :: after) t' →
      ∀ e, GivesUpAt wait told began e → t' ≤ max t e

/-- A version that is waited for is above zero and is the one fetched last. The attempt is broken
off only in the beginning, when the clock does not reach to the end of the wait. -/
def Grounded (h : History surroundings) : Call → Prop
  | .awaitVersion version _ => 0 < version ∧ (marks fetched h).getLast? = some (.ok version)
  | .halt _ => ∃ start : Nat, h = [⟨.now, start⟩] ∧
    lastSecond < (start + wait.nanos) / nanosPerSecond
  | _ => True

/-- In a history that comes to the moment `t`, the task was woken as soon as it was suspended. -/
def Restless (h : History surroundings) (t : Nat) : Prop :=
  ∃ (before after : History surroundings) (wakers : List Waker) (m : Nat),
    h = before ++ ⟨.suspend wakers, ()⟩ :: after ∧ Elapses d told began before m ∧
      Elapses d told m after t

/-- Why a wait has ended at the moment `t`. One in which every suspension takes time is not given
up for restlessness. -/
inductive Left (t : Nat) : History surroundings → Prop
  | stopping (before : History surroundings) : Left t (before ++ [⟨.stopping, true⟩])
  | expired (before : History surroundings) {now : Nat} (late : began + wait.nanos ≤ now) :
      Left t (before ++ [⟨.now, now⟩])
  | loaded (before : History surroundings) (version : UInt64) (polls : Nat)
      (answer : Except Fault Unit) : Left t (before ++ [⟨.awaitVersion version polls, some answer⟩])
  | restless {h : History surroundings} (restless : Restless d told began h t) : Left t h

structure InOrder (h : History surroundings) : Prop where
  paced : InPace h
  abandons : Abandons wait d told began h

structure WellTimed (h : History surroundings) (c : Call) : Prop where
  inOrder : InOrder wait d told began h
  grounded : Grounded wait h c
  timely : Timely d told began
    (fun t => Prompt wait d told began t ∧ InTime wait told began t c) h

structure LeftInTime (h : History surroundings) : Prop where
  inOrder : InOrder wait d told began h
  timely : Timely d told began (fun t => Prompt wait d told began t ∧ Left wait d told began t h) h

structure Looking (stopAt : Nat) (tries : Nat) (t : Nat) : Prop where
  ends : stopAt = began + wait.nanos
  late : began + tries * (100 * nanosPerMilli) ≤ t
  tried : ∀ n < tries, n * (100 * nanosPerMilli) < wait.nanos
  prompt : Prompt wait d told began t

def Fetched (stopAt : Nat) : Option UInt64 → History surroundings → Prop
  | none, h => LeftInTime wait d told began h
  | some version, h =>
    0 < version ∧ (marks fetched h).getLast? = some (.ok version) ∧
      (∃ n, marks pace h = rounds n ++ [.fetch]) ∧
      Timely d told began (fun t => stopAt = began + wait.nanos ∧ Prompt wait d told began t) h

variable {wait d told began}

theorem abandons_of_unloaded {h : History surroundings}
    (unloaded : ∀ polls, .load polls ∉ marks pace h) : Abandons wait d told began h := by
  rintro before after version polls answer rfl
  exact (unloaded polls
    (mem_marks.mpr ⟨_, List.mem_append_right _ (List.mem_cons_self ..), rfl⟩)).elim

theorem inOrder_of_fetched {h : History surroundings} {n : Nat}
    (paced : marks pace h = rounds n ++ [.fetch]) : InOrder wait d told began h where
  paced := ⟨n, 0, paced ▸ List.prefix_rfl⟩
  abandons := abandons_of_unloaded fun polls => paced ▸ load_not_mem_rounds n polls

theorem inOrder_of_rounds {h : History surroundings} {n : Nat} (paced : marks pace h = rounds n) :
    InOrder wait d told began h where
  paced := ⟨n, 0, paced ▸ List.prefix_append _ _⟩
  abandons := abandons_of_unloaded fun polls loads =>
    load_not_mem_rounds n polls (List.mem_append_left _ (paced ▸ loads))

theorem prompt_of_early {t : Nat} (early : t ≤ began) : Prompt wait d told began t :=
  fun e _ => (early.trans (Nat.le_max_left began e)).trans (by omega)

theorem Looking.next {stopAt t t' : Nat} {tries : Nat}
    (looking : Looking wait d told began stopAt tries t)
    (early : Early wait told began t) (le : t ≤ t') (within : t' ≤ t + d) :
    Prompt wait d told began t' ∧
      Looking wait d told began stopAt (tries + 1) (t' + (snooze tries).nanos) := by
  have step : 100 * nanosPerMilli ≤ (snooze tries).nanos := by
    rw [snooze_nanos]
    refine Nat.le_min.mpr ⟨?_, by decide⟩
    exact Nat.le_mul_of_pos_left _ (Nat.succ_pos tries)
  have longest : (snooze tries).nanos ≤ 2 * nanosPerSecond := by
    rw [snooze_nanos]
    exact Nat.min_le_right _ _
  have prompt {extra : Nat} (short : extra ≤ 2 * nanosPerSecond) :
      Prompt wait d told began (t' + extra) := by
    intro e ends
    have := early e ends
    omega
  have late := looking.late
  refine ⟨prompt (Nat.zero_le _), looking.ends, ?late, ?tried, prompt longest⟩
  case late =>
    rw [Nat.succ_mul]
    omega
  case tried =>
    intro n n_lt
    rcases Nat.lt_succ_iff_lt_or_eq.mp n_lt with earlier | rfl
    · exact looking.tried n earlier
    · have := early _ (.inl rfl)
      omega

/-- The pauses of so many tries use the wait up, so the fuel is never what ends the fetching. -/
theorem not_looking {stopAt t tries : Nat} (many : triesWithin wait ≤ tries) :
    ¬Looking wait d told began stopAt tries t := by
  intro looking
  have tried := looking.tried _ (Nat.lt_of_succ_le many)
  exact Nat.lt_irrefl _ (tried.trans (Nat.mul_comm _ _ ▸ Nat.lt_mul_div_succ _ (by decide)))

variable {stopAt tries : Nat} {h : History surroundings}

theorem untold_of_looking
    (looking : Timely d told began (Looking wait d told began stopAt tries) h) :
    Timely d told began
      (fun t => Looking wait d told began stopAt tries t ∧ ∀ s, told = some s → t < s)
      (h ++ [⟨.stopping, false⟩]) := by
  refine looking.concat fun t t' looking ⟨same, answer⟩ => ?_
  subst same
  refine ⟨looking, fun s since => Nat.lt_of_not_le fun le => ?_⟩
  exact Bool.false_ne_true (answer.mpr ⟨s, since, le⟩)

theorem inTime_of_early {now : Nat} (early : now < stopAt)
    (untold : Timely d told began
      (fun t => Looking wait d told began stopAt tries t ∧ ∀ s, told = some s → t < s) h) :
    Timely d told began
      (fun t => Looking wait d told began stopAt tries t ∧ Early wait told began t)
      (h ++ [⟨.now, now⟩]) := by
  refine untold.concat fun t t' ⟨looking, untold⟩ ⟨same, shown⟩ => ?_
  subst same shown
  refine ⟨looking, ?_⟩
  rintro e (rfl | since)
  · exact looking.ends ▸ early
  · exact untold e since

theorem tried_of_inTime (limit : Duration) (answer : Except Fault UInt64)
    (inTime : Timely d told began
      (fun t => Looking wait d told began stopAt tries t ∧ Early wait told began t) h) :
    Timely d told began
      (fun t => Prompt wait d told began t ∧
        Looking wait d told began stopAt (tries + 1) (t + (snooze tries).nanos))
      (h ++ [⟨.fetchVersion limit, answer⟩]) :=
  inTime.concat fun _ _ ⟨looking, early⟩ ⟨le, within⟩ => looking.next early le within

theorem fetchVersion_wellTimed (limit : Duration) (fuel : Nat) (paced : marks pace h = rounds tries)
    (looking : Timely d told began (Looking wait d told began stopAt tries) h)
    (enough : triesWithin wait ≤ tries + fuel) :
    (fetchVersion limit stopAt tries fuel).Keeps (WellTimed wait d told began)
      (Fetched wait d told began stopAt) h := by
  -- A call is made at a history that is one event longer than the one before; once what matters of
  -- a history is known, the history itself is forgotten.
  induction fuel generalizing tries h with
  | zero =>
    exact ⟨inOrder_of_rounds paced,
      looking.mono fun _ looking => absurd looking (not_looking enough)⟩
  | succ fuel ih =>
    simp only [fetchVersion, ask_eq, Program.bind_eq, Program.bind_call, Program.bind_done,
      Program.keeps_call, Program.keeps_ite, Program.pure_eq]
    refine ⟨⟨inOrder_of_rounds paced, trivial, looking.mono fun _ looking =>
      ⟨looking.prompt, trivial⟩⟩, fun stopping => ⟨?stopping, ?goesOn⟩⟩
    case stopping =>
      rintro rfl
      exact ⟨inOrder_of_rounds (marks_of_none paced rfl),
        looking.concat fun t t' looking ⟨same, _⟩ => ⟨same ▸ looking.prompt, .stopping h⟩⟩
    case goesOn =>
      intro goesOn
      obtain rfl : stopping = false := by simpa using goesOn
      have untold := untold_of_looking looking
      replace paced : marks pace (h ++ [⟨.stopping, false⟩]) = rounds tries :=
        marks_of_none paced rfl
      generalize h ++ [⟨.stopping, false⟩] = h at paced untold ⊢
      refine ⟨⟨inOrder_of_rounds paced, trivial, untold.mono fun _ ⟨looking, _⟩ =>
        ⟨looking.prompt, trivial⟩⟩, fun now => ⟨fun late => ?late, fun early => ?early⟩⟩
      case late =>
        exact ⟨inOrder_of_rounds (marks_of_none paced rfl),
          untold.concat fun t t' ⟨looking, _⟩ ⟨same, _⟩ =>
            ⟨same ▸ looking.prompt, .expired h (looking.ends ▸ late)⟩⟩
      case early =>
        have inTime := inTime_of_early (Nat.lt_of_not_le early) untold
        replace paced : marks pace (h ++ [⟨.now, now⟩]) = rounds tries := marks_of_none paced rfl
        generalize h ++ [⟨.now, now⟩] = h at paced inTime ⊢
        refine ⟨⟨inOrder_of_rounds paced, trivial, inTime.mono fun _ ⟨looking, early⟩ =>
          ⟨looking.prompt, early⟩⟩, fun answer => ?_⟩
        have paced' :
            marks pace (h ++ [⟨.fetchVersion limit, answer⟩]) = rounds tries ++ [.fetch] :=
          marks_of_some paced rfl
        have tried := tried_of_inTime limit answer inTime
        have again : WellTimed wait d told began (h ++ [⟨.fetchVersion limit, answer⟩])
              (.sleep (snooze tries)) ∧
            ∀ r, (fetchVersion limit stopAt (tries + 1) fuel).Keeps (WellTimed wait d told began)
              (Fetched wait d told began stopAt)
              (h ++ [⟨.fetchVersion limit, answer⟩] ++ [⟨.sleep (snooze tries), r⟩]) := by
          refine ⟨⟨inOrder_of_fetched paced', trivial, tried.mono fun _ ⟨prompt, _⟩ =>
            ⟨prompt, trivial⟩⟩, fun r => ih ?paced ?looking (by omega)⟩
          case paced => exact (marks_of_some paced' rfl).trans (by simp [rounds_succ])
          case looking => exact tried.concat fun t t' ⟨_, looking⟩ same => same ▸ looking
        rcases answer with fault | version
        · exact again
        · refine Program.keeps_ite.mpr ⟨fun some => ?_, fun _ => again⟩
          have last : marks fetched (h ++ [⟨.fetchVersion limit, .ok version⟩]) = _ :=
            marks_of_some rfl rfl
          exact ⟨UInt64.pos_iff_ne_zero.mpr some, by simp [last], ⟨tries, paced'⟩,
            tried.mono fun _ ⟨prompt, looking⟩ => ⟨looking.ends, prompt⟩⟩

end

end FollowerSync.Attempt
