import FollowerSync.Proofs.Footprints
import FollowerSync.Proofs.Roundings
import FollowerSync.Proofs.VersionFetches

set_option autoImplicit false

namespace FollowerSync.Attempt

section
variable {wait : Duration} {d : Nat} {told : Option Nat} {began : Nat}
  {h : History surroundings} {e : Event surroundings}

/-!
## Polls of the wait for a version
-/

theorem Restless.concat {t t' : Nat} (restless : Restless d told began h t)
    (passes : Passes d told t t' e) : Restless d told began (h ++ [e]) t' := by
  obtain ⟨before, after, wakers, m, rfl, early, late⟩ := restless
  exact ⟨before, after ++ [e], wakers, m, by simp, early, elapses_concat.mpr ⟨t, late, passes⟩⟩

theorem Abandons.concat (abandons : Abandons wait d told began h)
    (swift : Timely d told began (fun t => ∀ t', Passes d told t t' e →
      ∀ x, GivesUpAt wait told began x → t' ≤ max t x) h) :
    Abandons wait d told began (h ++ [e]) := by
  intro before after version polls answer split t t' early late x gives
  rcases List.eq_nil_or_concat after with rfl | ⟨after, last, rfl⟩
  · obtain ⟨rfl, ⟨⟩⟩ := List.append_inj' split rfl
    obtain ⟨m, passes, rfl⟩ := late
    exact swift t early _ passes x gives
  · rw [List.concat_eq_append, ← List.cons_append, ← List.append_assoc] at split
    obtain ⟨rfl, ⟨⟩⟩ := List.append_inj' split rfl
    rw [List.concat_eq_append, ← List.cons_append, elapses_concat] at late
    obtain ⟨m, later, passes⟩ := late
    have reached := abandons before after version polls answer rfl t m early later x gives
    exact (swift m (elapses_append.mpr ⟨t, early, later⟩) t' passes x gives).trans
      (max_le reached (Nat.le_max_right ..))

structure Limits (wait : Duration) (began limit t : Nat) : Prop where
  reaches : began + wait.nanos ≤ limit
  passed : limit = began + wait.nanos ∨ limit ≤ t

/-- What is known of the moment at which a wait for a version goes on, after so many suspensions. -/
structure Underway (wait : Duration) (d : Nat) (told : Option Nat) (began limit suspensions : Nat)
    (h : History surroundings) (t : Nat) : Prop where
  prompt : Prompt wait d told began t
  limits : Limits wait began limit t
  rested : Restless d told began h t ∨ began + suspensions ≤ t ∧ suspensions ≤ wait.nanos

/-- A wait for a version goes on after so many polls and suspensions, and `K` is known of the
moment. -/
structure Racing (wait : Duration) (d : Nat) (told : Option Nat) (began : Nat) (version : UInt64)
    (limit polls suspensions : Nat) (K : Nat → Prop) (h : History surroundings) : Prop where
  paced : ∃ n, marks pace h = rounds n ++ .fetch :: (List.range polls).map .load
  grounded : 0 < version ∧ (marks fetched h).getLast? = some (.ok version)
  abandons : Abandons wait d told began h
  timely : Timely d told began
    (fun t => Underway wait d told began limit suspensions h t ∧ K t) h

def Polled (wait : Duration) (d : Nat) (told : Option Nat) (began : Nat) (version : UInt64)
    (limit polls suspensions : Nat) (K : Nat → Prop) {α : Type} :
    Option α → History surroundings → Prop
  | some _, h => LeftInTime wait d told began h
  | none, h => Racing wait d told began version limit polls suspensions K h

variable {version : UInt64} {limit polls polls' suspensions : Nat} {K K' : Nat → Prop}

theorem Racing.inOrder
    (racing : Racing wait d told began version limit polls suspensions K h) :
    InOrder wait d told began h := by
  obtain ⟨n, paced⟩ := racing.paced
  exact ⟨⟨n, polls, paced ▸ List.prefix_rfl⟩, racing.abandons⟩

theorem Racing.wellTimed {c : Call}
    (racing : Racing wait d told began version limit polls suspensions K h)
    (grounded : Grounded wait h c)
    (inTime : ∀ t, Underway wait d told began limit suspensions h t → K t →
      InTime wait told began t c) : WellTimed wait d told began h c where
  inOrder := racing.inOrder
  grounded := grounded
  timely := racing.timely.mono fun t ⟨underway, known⟩ =>
    ⟨underway.prompt, inTime t underway known⟩

theorem Racing.left (racing : Racing wait d told began version limit polls suspensions K h)
    (left : ∀ t, Underway wait d told began limit suspensions h t → K t →
      Left wait d told began t h) : LeftInTime wait d told began h where
  inOrder := racing.inOrder
  timely := racing.timely.mono fun t ⟨underway, known⟩ =>
    ⟨underway.prompt, left t underway known⟩

theorem last_fetched {answer : Option (Except Fault UInt64)} (unfetched : fetched e = none)
    (last : (marks fetched h).getLast? = answer) :
    (marks fetched (h ++ [e])).getLast? = answer := by
  rw [marks_of_none rfl unfetched, last]

theorem Racing.instant (racing : Racing wait d told began version limit polls suspensions K h)
    (unfetched : fetched e = none) (still : ∀ t t', Passes d told t t' e → t' = t)
    (paced : ∃ n, marks pace (h ++ [e]) = rounds n ++ .fetch :: (List.range polls').map .load)
    (known : ∀ t, Underway wait d told began limit suspensions h t → K t → Passes d told t t e →
      K' t) : Racing wait d told began version limit polls' suspensions K' (h ++ [e]) where
  paced := paced
  grounded := racing.grounded.imp_right (last_fetched unfetched)
  abandons := racing.abandons.concat fun t elapses t' passes x _ =>
    (still t t' passes).le.trans (Nat.le_max_left ..)
  timely := racing.timely.concat fun t t' ⟨underway, known'⟩ passes => by
    obtain rfl := still t t' passes
    exact ⟨⟨underway.prompt, underway.limits,
      underway.rested.imp_left fun restless => restless.concat passes⟩,
      known t' underway known' passes⟩

theorem Racing.unmarked (racing : Racing wait d told began version limit polls suspensions K h)
    (unmarked : pace e = none) :
    ∃ n, marks pace (h ++ [e]) = rounds n ++ .fetch :: (List.range polls).map .load :=
  racing.paced.imp fun _ paced => marks_of_none paced unmarked

theorem Racing.marked (racing : Racing wait d told began version limit polls suspensions K h)
    (marked : pace e = some (.load polls)) :
    ∃ n, marks pace (h ++ [e]) = rounds n ++ .fetch :: (List.range (polls + 1)).map .load := by
  obtain ⟨n, paced⟩ := racing.paced
  exact ⟨n, (marks_of_some paced marked).trans (by simp [List.range_succ])⟩

theorem keeps_loading (racing : Racing wait d told began version limit polls suspensions K h) :
    (((Future.loading version).before limit).poll polls).Keeps (WellTimed wait d told began)
      (Polled wait d told began version limit (polls + 1) suspensions fun t => K t ∧ t < limit)
      h := by
  refine ⟨racing.wellTimed racing.grounded fun _ _ _ => trivial, fun answer => ?_⟩
  have polled : Racing wait d told began version limit (polls + 1) suspensions K
      (h ++ [⟨.awaitVersion version polls, answer⟩]) :=
    racing.instant rfl (fun _ _ same => same) (racing.marked rfl) fun _ _ known _ => known
  rcases answer with _ | answer
  · refine ⟨polled.wellTimed trivial fun _ _ _ => trivial, fun now => ?_⟩
    refine Program.keeps_ite.mpr ⟨fun late => ?late, fun early => ?early⟩
    case late =>
      have looked : Racing wait d told began version limit (polls + 1) suspensions
          (fun t => began + wait.nanos ≤ now) (h ++ [⟨.awaitVersion version polls, none⟩] ++
            [⟨.now, now⟩]) :=
        polled.instant rfl (fun _ _ same => same.1) (polled.unmarked rfl)
          fun _ underway _ _ => underway.limits.reaches.trans late
      exact looked.left fun _ _ late => .expired _ late
    case early =>
      exact polled.instant rfl (fun _ _ same => same.1) (polled.unmarked rfl)
        fun t _ known ⟨_, shown⟩ => ⟨known, shown ▸ Nat.lt_of_not_le early⟩
  · exact polled.left fun _ _ _ => .loaded ..

theorem keeps_stopping (racing : Racing wait d told began version limit polls suspensions K h)
    (n : Nat) :
    (Future.stopping.poll n).Keeps (WellTimed wait d told began)
      (Polled wait d told began version limit polls suspensions
        fun t => K t ∧ ∀ s, told = some s → t < s) h := by
  refine ⟨racing.wellTimed trivial fun _ _ _ => trivial, fun answer => ?_⟩
  have looked {K' : Nat → Prop} (known : ∀ t, K t → Passes d told t t ⟨.stopping, answer⟩ → K' t) :
      Racing wait d told began version limit polls suspensions K' (h ++ [⟨.stopping, answer⟩]) :=
    racing.instant rfl (fun _ _ same => same.1) (racing.unmarked rfl) fun t _ => known t
  cases answer with
  | true => exact (looked fun _ known _ => known).left fun _ _ _ => .stopping h
  | false =>
    refine looked fun t known ⟨_, told⟩ => ⟨known, fun s since => Nat.lt_of_not_le fun le => ?_⟩
    exact Bool.false_ne_true (told.mpr ⟨s, since, le⟩)

theorem keeps_orElse {α : Type} {first second : Act (Option α)}
    (keeps : first.Keeps (WellTimed wait d told began)
      (Polled wait d told began version limit polls suspensions K) h)
    (goesOn : ∀ h, Racing wait d told began version limit polls suspensions K h →
      second.Keeps (WellTimed wait d told began)
        (Polled wait d told began version limit polls' suspensions K') h) :
    (Future.orElse first second).Keeps (WellTimed wait d told began)
      (Polled wait d told began version limit polls' suspensions K') h := by
  refine (Program.keeps_bind _).mpr (keeps.mono ?_)
  rintro (_ | a) h polled
  · exact goesOn h polled
  · exact polled

theorem keeps_map {α β : Type} {p : Act (Option α)} (f : α → β)
    (keeps : p.Keeps (WellTimed wait d told began)
      (Polled wait d told began version limit polls suspensions K) h) :
    (p.bind fun a => .done (a.map f)).Keeps (WellTimed wait d told began)
      (Polled wait d told began version limit polls suspensions K) h := by
  refine (Program.keeps_bind _).mpr (keeps.mono ?_)
  rintro (_ | a) h polled <;> exact polled

theorem Racing.early (racing : Racing wait d told began version limit polls suspensions K h)
    (early : ∀ t, K t → t < limit ∧ ∀ s, told = some s → t < s) :
    Racing wait d told began version limit polls suspensions (Early wait told began) h where
  paced := racing.paced
  grounded := racing.grounded
  abandons := racing.abandons
  timely := racing.timely.mono fun t ⟨underway, known⟩ => by
    obtain ⟨within, untold⟩ := early t known
    refine ⟨underway, ?_⟩
    rintro e (rfl | since)
    · rcases underway.limits.passed with same | passed
      · exact same ▸ within
      · exact absurd within (Nat.not_lt.mpr passed)
    · exact untold e since

def race (version : UInt64) (limit : Nat) : Future (Option (Except Fault Unit) ⊕ Unit) :=
  ((Future.loading version).before limit).either .stopping

theorem keeps_race
    (racing : Racing wait d told began version limit polls suspensions (fun _ => True) h) :
    ((race version limit).poll polls).Keeps (WellTimed wait d told began)
      (Polled wait d told began version limit (polls + 1) suspensions (Early wait told began))
      h := by
  refine ⟨racing.wellTimed trivial fun _ _ _ => trivial, fun first => ?_⟩
  have drawn : Racing wait d told began version limit polls suspensions (fun _ => True)
      (h ++ [⟨.draw, first⟩]) :=
    racing.instant rfl (fun _ _ same => same) (racing.unmarked rfl) fun _ _ _ _ => trivial
  refine Program.keeps_ite.mpr ⟨fun _ => ?loading, fun _ => ?stopping⟩
  case loading =>
    refine (keeps_orElse (keeps_map _ (keeps_loading drawn)) fun h polled =>
      keeps_map _ (keeps_stopping polled polls)).mono ?_
    rintro (_ | a) h polled
    · exact polled.early fun t ⟨⟨_, within⟩, untold⟩ => ⟨within, untold⟩
    · exact polled
  case stopping =>
    refine (keeps_orElse (keeps_map _ (keeps_stopping drawn polls)) fun h polled =>
      keeps_map _ (keeps_loading polled)).mono ?_
    rintro (_ | a) h polled
    · exact polled.early fun t ⟨⟨_, untold⟩, within⟩ => ⟨within, untold⟩
    · exact polled

/-!
## Suspensions
-/

theorem suspend_swift {t t' : Nat} (limits : Limits wait began limit t)
    (early : Early wait told began t)
    (passes : Passes d told t t' ⟨.suspend (race version limit).wakers, ()⟩) :
    ∀ x, GivesUpAt wait told began x → t' ≤ max t x := by
  rintro x (rfl | since)
  · have within := early _ (.inl rfl)
    obtain rfl : limit = began + wait.nanos := limits.passed.resolve_right fun passed => by
      have := limits.reaches
      omega
    exact passes.2 (.due _) (List.mem_cons_self ..) _ rfl
  · exact passes.2 .stopping (by simp [race, Future.either, Future.stopping]) x since

theorem Racing.suspend (racing : Racing wait d told began version limit polls suspensions
    (Early wait told began) h) :
    Racing wait d told began version limit polls (suspensions + 1) (fun _ => True)
      (h ++ [⟨.suspend (race version limit).wakers, ()⟩]) where
  paced := racing.unmarked rfl
  grounded := racing.grounded.imp_right (last_fetched rfl)
  abandons := racing.abandons.concat <| racing.timely.mono fun t ⟨underway, early⟩ t' passes =>
    suspend_swift underway.limits early passes
  timely := by
    intro t' elapses
    obtain ⟨t, earlier, passes⟩ := elapses_concat.mp elapses
    obtain ⟨underway, early⟩ := racing.timely t earlier
    have swift := suspend_swift underway.limits early passes
    have le := passes.le
    refine ⟨⟨fun x gives => ?prompt, ⟨underway.limits.reaches, ?passed⟩, ?rested⟩, trivial⟩
    case prompt => exact (swift x gives).trans (max_le (underway.prompt x gives) (by omega))
    case passed => exact underway.limits.passed.imp_right fun passed => passed.trans le
    case rested =>
      rcases underway.rested with restless | ⟨reached, _⟩
      · exact .inl (restless.concat passes)
      · rcases Nat.eq_or_lt_of_le le with rfl | later
        · exact .inl ⟨h, [], _, t, rfl, earlier, rfl⟩
        · have within := early _ (.inl rfl)
          exact .inr (by omega)

theorem keeps_await (fuel : Nat) {n : Nat}
    (racing : Racing wait d told began version limit n n (fun _ => True) h)
    (enough : wait.nanos < n + fuel) :
    ((race version limit).await n fuel).Keeps (WellTimed wait d told began)
      (fun _ => LeftInTime wait d told began) h := by
  induction fuel generalizing n h with
  | zero =>
    refine racing.left fun t underway _ => ?_
    rcases underway.rested with restless | ⟨_, few⟩
    · exact .restless restless
    · omega
  | succ fuel ih =>
    refine (Program.keeps_bind _).mpr ((keeps_race racing).mono ?_)
    rintro (_ | a) h polled
    · exact ⟨polled.wellTimed trivial fun _ _ early => early, fun _ => ih polled.suspend (by omega)⟩
    · exact polled

def loadFound (wait : Duration) (stopAt : Instant) : Option UInt64 → Act Unit
  | none => return
  | some version => do
    let now ← ask .now
    loadVersion version (.ofNanos (stopAt - now)) wait

theorem remaining_nanos {t : Nat} (le : began ≤ t) :
    (Duration.ofNanos (began + wait.nanos - t)).nanos = began + wait.nanos - t := by
  refine Nat.min_eq_left ?_
  have := wait.inRange
  omega

theorem loadFound_wellTimed {found : Option UInt64} {stopAt : Instant}
    (fetched : Fetched wait d told began stopAt found h) :
    (loadFound wait stopAt found).Keeps (WellTimed wait d told began)
      (fun _ => LeftInTime wait d told began) h := by
  cases found with
  | none => exact fetched
  | some version =>
    obtain ⟨pos, last, ⟨n, paced⟩, timely⟩ := fetched
    refine ⟨⟨inOrder_of_fetched paced, trivial, timely.mono fun t ⟨_, prompt⟩ =>
      ⟨prompt, trivial⟩⟩, fun now => ?_⟩
    replace timely : Timely d told began (fun t => stopAt = began + wait.nanos ∧ t = now ∧
        Prompt wait d told began t) (h ++ [⟨.now, now⟩]) :=
      timely.concat fun t t' ⟨ends, prompt⟩ ⟨same, shown⟩ =>
        ⟨ends, same.trans shown.symm, same ▸ prompt⟩
    replace paced : marks pace (h ++ [⟨.now, now⟩]) = rounds n ++ [.fetch] := marks_of_none paced rfl
    replace last := last_fetched (e := ⟨.now, now⟩) rfl last
    generalize h ++ [⟨.now, now⟩] = h at paced last timely ⊢
    refine ⟨⟨inOrder_of_fetched paced, trivial, timely.mono fun t ⟨_, _, prompt⟩ =>
      ⟨prompt, trivial⟩⟩, fun start => ?_⟩
    have racing : Racing wait d told began version
        (start + (Duration.ofNanos (stopAt - now)).nanos) 0 0 (fun _ => True)
        (h ++ [⟨.now, start⟩]) := by
      have paced' : marks pace (h ++ [⟨.now, start⟩]) = rounds n ++ [.fetch] :=
        marks_of_none paced rfl
      refine ⟨⟨n, paced'⟩, ⟨pos, last_fetched rfl last⟩, (inOrder_of_fetched paced').abandons,
        fun t' elapses => ?_⟩
      obtain ⟨t, earlier, rfl, shown⟩ := elapses_concat.mp elapses
      obtain ⟨rfl, rfl, prompt⟩ := timely t' earlier
      subst shown
      rw [remaining_nanos earlier.le]
      refine ⟨⟨prompt, ⟨?reaches, ?passed⟩, .inr ⟨earlier.le, Nat.zero_le _⟩⟩, trivial⟩
      all_goals omega
    have enough : wait.nanos < 0 + pollsWithin wait := by
      unfold pollsWithin
      omega
    change Program.Keeps _ _
      (((race version _).await 0 (pollsWithin wait)).bind fun _ => .done ()) _
    rw [Program.keeps_bind]
    exact keeps_await _ racing enough

theorem awaitCurrentVersion_eq {wait limit : Duration} (tenth : fetchLimit wait = some limit) :
    awaitCurrentVersion wait = .call (S := surroundings) .now fun start =>
      if lastSecond < (start + wait.nanos) / nanosPerSecond then stop .outOfRange
      else (fetchVersion limit (start + wait.nanos) 0 (triesWithin wait)).bind
        (loadFound wait (start + wait.nanos)) := by
  simp only [awaitCurrentVersion, momentAfter, tenth, ask_eq, Program.bind_eq, Program.bind_call,
    Program.bind_done]
  refine congrArg _ (funext fun start => ?_)
  split
  · rw [stop_bind, stop_bind]
  · rw [Program.pure_eq, Program.bind_done]
    refine congrArg _ (funext fun found => ?_)
    cases found <;> rfl

theorem exists_fetchLimit (wait : Duration) : ∃ limit, fetchLimit wait = some limit :=
  Option.isSome_iff_exists.mp wait.scale?_tenth_isSome

theorem awaitCurrentVersion_wellTimed :
    (awaitCurrentVersion wait).Keeps (WellTimed wait d told began)
      (fun _ => LeftInTime wait d told began) [] := by
  obtain ⟨limit, tenth⟩ := exists_fetchLimit wait
  rw [awaitCurrentVersion_eq tenth]
  refine ⟨⟨inOrder_of_rounds (n := 0) rfl, trivial, fun t elapses =>
    ⟨prompt_of_early (Nat.le_of_eq elapses), trivial⟩⟩, fun start => ?begun⟩
  case begun =>
    have paced : marks pace [⟨.now, start⟩] = rounds 0 := rfl
    have begun : Timely d told began
        (fun t => start = began ∧ Looking wait d told began (began + wait.nanos) 0 t)
        [⟨.now, start⟩] := by
      rintro t ⟨m, ⟨same, shown⟩, rfl⟩
      subst same shown
      refine ⟨rfl, rfl, ?_, fun n n_lt => absurd n_lt (Nat.not_lt_zero n),
        prompt_of_early (Nat.le_refl _)⟩
      rw [Nat.zero_mul]
      exact Nat.le_refl _
    refine Program.keeps_ite.mpr ⟨fun unreached => ?_, fun reached => ?_⟩
    · exact ⟨⟨inOrder_of_rounds paced, ⟨start, rfl, unreached⟩, begun.mono fun _ ⟨_, looking⟩ =>
        ⟨looking.prompt, trivial⟩⟩, nofun⟩
    · rw [Program.keeps_bind]
      have looking : Timely d told began
          (Looking wait d told began (start + wait.nanos) 0) [⟨.now, start⟩] :=
        begun.mono fun t ⟨same, looking⟩ => same ▸ looking
      exact (fetchVersion_wellTimed limit _ paced looking (Nat.le_add_left ..)).mono
        fun found h fetched => loadFound_wellTimed fetched

end

/-!
## The wait comes to its end
-/

/-- Calls to which there may be an answer. -/
def Call.Answerable (c : Call) : Prop := ∀ reason, c ≠ .halt reason

theorem fetchVersion_answerable (limit : Duration) (stopAt tries fuel : Nat) :
    (fetchVersion limit stopAt tries fuel).Uses Call.Answerable := by
  induction fuel generalizing tries with
  | zero => trivial
  | succ fuel ih => simp [fetchVersion, Call.Answerable, forall_answer, ih]

theorem loadFound_answerable (wait : Duration) (stopAt : Nat) (found : Option UInt64) :
    (loadFound wait stopAt found).Uses Call.Answerable := by
  cases found with
  | none => trivial
  | some version =>
    exact ⟨nofun, fun now => loadVersion_uses (fun _ => nofun) nofun nofun nofun (fun _ => nofun) _ _⟩

section
variable {limit : Duration} {stopAt now : Instant} {fuel : Nat}

theorem fetchVersion_missed (early : now < stopAt) (tries : Nat) :
    Steps (fetchVersion limit stopAt tries (fuel + 1))
      [⟨.stopping, false⟩, ⟨.now, now⟩, ⟨.fetchVersion limit, .ok 0⟩, ⟨.sleep (snooze tries), ()⟩]
      (fetchVersion limit stopAt (tries + 1) fuel) := by
  refine .call (.call ?_)
  simp only [Program.bind_done, if_neg (Nat.not_le_of_lt early)]
  exact .call (.call (.refl _))

theorem fetchVersion_found (early : now < stopAt) (tries : Nat) {version : UInt64}
    (some : version ≠ 0) :
    Runs (fetchVersion limit stopAt tries (fuel + 1))
      [⟨.stopping, false⟩, ⟨.now, now⟩, ⟨.fetchVersion limit, .ok version⟩] (.some version) := by
  refine .call (.call ?_)
  simp only [Program.bind_done, if_neg (Nat.not_le_of_lt early)]
  refine .call ?_
  simp only [Program.bind_done, if_pos some]
  exact .refl _

end

theorem awaitCurrentVersion_returns_iff (wait : Duration) {start : Instant}
    {rule : History surroundings → (c : Call) → Option c.Reply} (clock : rule [] .now = some start)
    (answers : ∀ h (c : Call), c.Answerable → (rule h c).isSome) :
    ((awaitCurrentVersion wait).play (Program.noting (S := surroundings) rule) []).2 = some () ↔
      (start + wait.nanos) / nanosPerSecond ≤ lastSecond := by
  obtain ⟨limit, tenth⟩ := exists_fetchLimit wait
  simp only [awaitCurrentVersion_eq tenth, Program.play, Program.noting, clock]
  split
  · rename_i unreached
    rw [play_stop]
    simpa using unreached
  · rename_i reached
    have answerable := (fetchVersion_answerable limit (start + wait.nanos) 0
      (triesWithin wait)).bind (loadFound_answerable wait (start + wait.nanos))
    obtain ⟨⟨⟩, ended⟩ := Option.isSome_iff_exists.mp (answerable.plays answers [⟨.now, start⟩])
    exact iff_of_true ended (Nat.not_lt.mp reached)

/-!
## What follows the wait
-/

section
variable (setting : Setting) (job : Job)

def depart (began : Instant) (fault : Option Fault) (j : Journal) : Act Report := do
  awaitCurrentVersion setting.settings.currentVersionWait
  let _ ← ask (.upkeep (.advanceVersion job.key))
  ask (.upkeep (.unlock job.key))
  let ended ← ask .now
  return report job j fault (.ofNanos (ended - began))

def conclude (began : Instant) (fault : Option Fault) (j : Journal) : Act Report := do
  close setting job fault
  let ended ← ask .now
  return report job j fault (.ofNanos (ended - began))

def parting (advanced : Nat) (unlocked : Unit) (ended : Instant) : History surroundings :=
  [⟨.upkeep (.advanceVersion job.key), advanced⟩, ⟨.upkeep (.unlock job.key), unlocked⟩,
    ⟨.now, ended⟩]

theorem run_eq : run setting job = .call (S := surroundings) .now fun began =>
    ((work setting job).run.run {}).bind fun r =>
      conclude setting job began (faultOf r.1) r.2 := rfl

theorem fault_of_conclude {began : Instant} {fault : Option Fault} {j : Journal}
    {es : History surroundings} {ended : Report}
    (runs : Runs (conclude setting job began fault j) es ended) : ended.fault = fault := by
  obtain ⟨_, _, ⟨⟩, -, -, looks⟩ := Runs.bind_iff.mp runs
  obtain ⟨_, _, -, reports⟩ := Runs.call_iff.mp looks
  obtain ⟨-, rfl⟩ := Runs.done_iff.mp reports
  rfl

theorem conclude_eq (began : Instant) {fault : Option Fault} (final : fault ≠ some .requeued)
    (j : Journal) : conclude setting job began fault j =
      (recordOutcome job fault).bind fun _ => depart setting job began fault j := by
  simp only [conclude, depart, close, if_pos final, Program.bind_eq, Program.bind_bind]

theorem runs_depart_iff {began : Instant} {fault : Option Fault} {j : Journal}
    {es : History surroundings} {ended : Report} :
    Runs (depart setting job began fault j) es ended ↔
      ∃ waited advanced unlocked last,
        Runs (awaitCurrentVersion setting.settings.currentVersionWait) waited () ∧
        es = waited ++ parting job advanced unlocked last ∧
        ended = report job j fault (.ofNanos (last - began)) := by
  unfold depart
  simp only [ask_eq, Program.bind_eq, Program.bind_call, Program.bind_done, Program.pure_eq]
  rw [Runs.bind_iff]
  simp only [Runs.call_iff, Runs.done_iff]
  constructor
  · rintro ⟨waited, _, ⟨⟩, rfl, waits, advanced, _, rfl, unlocked, _, rfl, last, _, rfl, rfl, rfl⟩
    exact ⟨waited, advanced, unlocked, last, waits, rfl, rfl⟩
  · rintro ⟨waited, advanced, unlocked, last, waits, rfl, rfl⟩
    exact ⟨waited, _, (), rfl, waits, advanced, _, rfl, unlocked, _, rfl, last, _, rfl, rfl, rfl⟩

/-- Whatever is answered in the wait, what the attempt does next and what it reports is the same. -/
theorem run_waits {es : History surroundings} {ended : Report}
    (runs : Runs (run setting job) es ended) (unrequeued : ended.fault ≠ some .requeued) :
    ∃ (start : Instant) (before : History surroundings), before <+: es ∧ ∀ later ended',
      Runs (run setting job) (before ++ later) ended' ↔
        ∃ waited advanced unlocked last,
          Runs (awaitCurrentVersion setting.settings.currentVersionWait) waited () ∧
          later = waited ++ parting job advanced unlocked last ∧
          ended' = { ended with elapsed := .ofNanos (last - start) } := by
  rw [run_eq] at runs
  obtain ⟨began, _, rfl, working⟩ := Runs.call_iff.mp runs
  obtain ⟨worked, _, ⟨result, j⟩, rfl, works, concludes⟩ := Runs.bind_iff.mp working
  have final : faultOf result ≠ some .requeued := by
    rwa [fault_of_conclude setting job concludes] at unrequeued
  change Runs (conclude setting job began (faultOf result) j) _ ended at concludes
  rw [conclude_eq setting job began final] at concludes
  obtain ⟨recorded, closing, ⟨⟩, rfl, records, departs⟩ := Runs.bind_iff.mp concludes
  obtain ⟨_, _, _, _, -, -, rfl⟩ := (runs_depart_iff setting job).mp departs
  have steps : Steps (run setting job) (⟨.now, began⟩ :: (worked ++ recorded))
      (depart setting job began (faultOf result) j) := by
    refine .call ((works.bind _).append ?_)
    change Steps (conclude setting job began (faultOf result) j) _ _
    rw [conclude_eq setting job began final]
    exact records.bind _
  refine ⟨began, ⟨.now, began⟩ :: (worked ++ recorded), ⟨closing, by simp⟩, fun later ended' => ?_⟩
  rw [steps.runs_append_iff, runs_depart_iff]
  rfl

end

/-- With an answer to each call, the wait for the current version comes to its end if and only if
the clock reaches to the end of its time. It ends soon after it is to be given up. Its fetches, its
pauses and its one wait for a version come in pace and in time, and it is left because the server
stops, its time is over or a version was waited for. What is answered in it changes neither the
calls that follow nor the report, but for the time that the attempt took. -/
theorem awaitCurrentVersion_bounded (wait : Duration) (d : Nat) (told : Option Nat) (began : Nat) :
    (∀ rule : History surroundings → (c : Call) → Option c.Reply, rule [] .now = some began →
      (∀ h (c : Call), c.Answerable → (rule h c).isSome) →
      (((awaitCurrentVersion wait).play (Program.noting (S := surroundings) rule) []).2 = some () ↔
        (began + wait.nanos) / nanosPerSecond ≤ lastSecond)) ∧
    (∀ es q, Steps (awaitCurrentVersion wait) es q →
      InPace es ∧ Abandons wait d told began es ∧
      ∀ t, Elapses d told began es t →
        ∀ e, GivesUpAt wait told began e → t ≤ max began e + d + 2 * nanosPerSecond) ∧
    (∀ es c next, Steps (awaitCurrentVersion wait) es (.call c next) → Grounded wait es c ∧
      ∀ t, Elapses d told began es t → InTime wait told began t c) ∧
    (∀ es t, Runs (awaitCurrentVersion wait) es () → Elapses d told began es t →
      Left wait d told began t es) ∧
    ∀ setting job es ended, Runs (run setting job) es ended → ended.fault ≠ some .requeued →
      ∃ (start : Instant) (before : History surroundings), before <+: es ∧ ∀ later ended',
        Runs (run setting job) (before ++ later) ended' ↔
          ∃ waited advanced unlocked last,
            Runs (awaitCurrentVersion setting.settings.currentVersionWait) waited () ∧
            later = waited ++ parting job advanced unlocked last ∧
            ended' = { ended with elapsed := .ofNanos (last - start) } := by
  have timed : (awaitCurrentVersion wait).Keeps (WellTimed wait d told began)
    (fun _ => LeftInTime wait d told began) [] := awaitCurrentVersion_wellTimed
  refine ⟨fun rule clock answers => awaitCurrentVersion_returns_iff wait clock answers,
    fun es q steps => ?_, fun es c next steps => ?_, fun es t runs => ?_,
    fun setting job es ended => run_waits setting job⟩
  · obtain ⟨inOrder, prompt⟩ := timed.holds
      (I := fun h => InOrder wait d told began h ∧ Timely d told began (Prompt wait d told began) h)
      steps (fun h c called => ⟨called.inOrder, called.timely.mono fun _ => And.left⟩)
      fun _ h ended => ⟨ended.inOrder, ended.timely.mono fun _ => And.left⟩
    exact ⟨inOrder.paced, inOrder.abandons, prompt⟩
  · have called := timed.allowed steps
    exact ⟨called.grounded, fun t elapses => (called.timely t elapses).2⟩
  · exact fun elapses => ((timed.ended runs).timely t elapses).2

/-- A wait to beyond the last second of the clock is broken off at once. -/
theorem breaks_off_of_unreached {wait : Duration} {start : Nat}
    (unreached : lastSecond < (start + wait.nanos) / nanosPerSecond) :
    Steps (awaitCurrentVersion wait) [⟨.now, start⟩] (stop .outOfRange) ∧
      ∀ later, ¬Runs (awaitCurrentVersion wait) (⟨.now, start⟩ :: later) () := by
  obtain ⟨limit, tenth⟩ := exists_fetchLimit wait
  have steps : Steps (awaitCurrentVersion wait) [⟨.now, start⟩] (stop .outOfRange) := by
    rw [awaitCurrentVersion_eq tenth]
    refine .call ?_
    rw [if_pos unreached]
    exact .refl _
  refine ⟨steps, fun later runs => ?_⟩
  obtain ⟨r, -⟩ := Runs.call_iff.mp (steps.runs_append_iff.mp runs)
  exact nomatch r

/-- By a clock that shows one second, the longest wait that can be set is broken off. -/
theorem endlessWait_breaks_off :
    Steps (awaitCurrentVersion (.ofSecs 9223372036854775807)) [⟨.now, nanosPerSecond⟩]
      (stop .outOfRange) ∧
    ∀ later, ¬Runs (awaitCurrentVersion (.ofSecs 9223372036854775807))
      (⟨.now, nanosPerSecond⟩ :: later) () :=
  breaks_off_of_unreached (by decide +kernel)

theorem calm_answers {c : Call} (answerable : c.Answerable) : (calm c).isSome := by
  cases c with
  | halt reason => exact absurd rfl (answerable reason)
  | leader endpoint request limit => cases request <;> rfl
  | _ => rfl

section
variable {version : UInt64} {limit fuel n : Nat} {now : Instant}

theorem race_missed (early : now < limit) :
    Steps ((race version limit).await n (fuel + 1))
      [⟨.draw, true⟩, ⟨.awaitVersion version n, none⟩, ⟨.now, now⟩, ⟨.stopping, false⟩]
      (.call (.suspend (race version limit).wakers) fun _ =>
        (race version limit).await (n + 1) fuel) := by
  refine .call (.call (.call ?_))
  simp only [Program.bind_done, if_neg (Nat.not_le_of_lt early)]
  exact .call (.refl _)

theorem loadFound_missed {wait : Duration} {stopAt : Instant} (polls : pollsWithin wait = fuel + 1)
    (ends : now + (Duration.ofNanos (stopAt - now)).nanos = limit) (early : now < limit) :
    Steps (loadFound wait stopAt (some version))
      [⟨.now, now⟩, ⟨.now, now⟩, ⟨.draw, true⟩, ⟨.awaitVersion version 0, none⟩, ⟨.now, now⟩,
        ⟨.stopping, false⟩]
      (.call (.suspend (race version limit).wakers) fun _ =>
        ((race version limit).await 1 fuel).bind fun _ => .done ()) := by
  refine .call (.call ?_)
  change Steps (((race version (now + (Duration.ofNanos (stopAt - now)).nanos)).await 0
    (pollsWithin wait)).bind fun _ => .done ()) _ _
  rw [ends, polls]
  exact (race_missed early).bind _

theorem race_stopped :
    Runs ((race version limit).await n (fuel + 1)) [⟨.draw, false⟩, ⟨.stopping, true⟩]
      (some (.inr ())) := .call (.call (.refl _))

end

def slowFetches : History surroundings :=
  ⟨.now, (0 : Nat)⟩ ::
    ([⟨.stopping, false⟩, ⟨.now, (0 : Nat)⟩, ⟨.fetchVersion (.ofSecs 1), .ok 0⟩,
        ⟨.sleep (snooze 0), ()⟩] ++
      [⟨.stopping, false⟩, ⟨.now, 1100 * nanosPerMilli⟩, ⟨.fetchVersion (.ofSecs 1), .ok 5⟩] ++
      [⟨.now, 4 * nanosPerSecond⟩, ⟨.now, 4 * nanosPerSecond⟩, ⟨.draw, true⟩,
        ⟨.awaitVersion 5 0, none⟩, ⟨.now, 4 * nanosPerSecond⟩, ⟨.stopping, false⟩])

def lateRace : Future (Option (Except Fault Unit) ⊕ Unit) := race 5 (10 * nanosPerSecond)

def woken : History surroundings :=
  [⟨.suspend lateRace.wakers, ()⟩, ⟨.draw, false⟩, ⟨.stopping, true⟩]

theorem slowFetches_steps : Steps (awaitCurrentVersion (.ofSecs 10)) slowFetches
    (.call (.suspend lateRace.wakers) fun _ =>
      (lateRace.await 1 (10 * nanosPerSecond)).bind fun _ => .done ()) := by
  have tenth : fetchLimit (.ofSecs 10) = some (.ofSecs 1) := by decide +kernel
  have tries : triesWithin (.ofSecs 10) = 100 + 1 + 1 := by decide
  have ends : 0 + (Duration.ofSecs 10).nanos = 10 * nanosPerSecond := by decide
  have reached : ¬lastSecond < 10 * nanosPerSecond / nanosPerSecond := by decide
  have first : (0 : Nat) < 10 * nanosPerSecond := by decide
  have second : 1100 * nanosPerMilli < 10 * nanosPerSecond := by decide
  have found : Runs (fetchVersion (.ofSecs 1) (10 * nanosPerSecond) 0 (100 + 1 + 1)) _ (some 5) :=
    (fetchVersion_missed first 0).append (fetchVersion_found second 1 (by decide))
  have limit : 4 * nanosPerSecond +
      (Duration.ofNanos (10 * nanosPerSecond - 4 * nanosPerSecond)).nanos = 10 * nanosPerSecond := by
    decide
  have polls : pollsWithin (.ofSecs 10) = 10 * nanosPerSecond + 1 := by decide
  rw [awaitCurrentVersion_eq tenth]
  refine .call ?_
  rw [ends, tries, if_neg reached]
  exact (found.bind _).append (loadFound_missed polls limit (by decide))

theorem slowFetches_elapse : Elapses (3 * nanosPerSecond) (some (5 * nanosPerSecond)) 0
    slowFetches (4 * nanosPerSecond) := by
  have untold {t : Nat} (early : t < 5 * nanosPerSecond) :
      false = true ↔ ∃ s, some (5 * nanosPerSecond) = some s ∧ s ≤ t := by
    refine iff_of_false Bool.false_ne_true ?_
    rintro ⟨s, since, le⟩
    exact Nat.not_le_of_lt early (Option.some.inj since ▸ le)
  exact ⟨0, ⟨rfl, rfl⟩, 0, ⟨rfl, untold (by decide)⟩, 0, ⟨rfl, rfl⟩, nanosPerSecond,
    ⟨by decide, by decide⟩, 1100 * nanosPerMilli, rfl, 1100 * nanosPerMilli,
    ⟨rfl, untold (by decide)⟩, 1100 * nanosPerMilli, ⟨rfl, rfl⟩, 4 * nanosPerSecond,
    ⟨by decide, by decide⟩, 4 * nanosPerSecond, ⟨rfl, rfl⟩, 4 * nanosPerSecond, ⟨rfl, rfl⟩,
    4 * nanosPerSecond, rfl, 4 * nanosPerSecond, rfl, 4 * nanosPerSecond, ⟨rfl, rfl⟩,
    4 * nanosPerSecond, ⟨rfl, untold (by decide)⟩, rfl⟩

theorem woken_elapses : Elapses (3 * nanosPerSecond) (some (5 * nanosPerSecond))
    (4 * nanosPerSecond) woken (5 * nanosPerSecond) := by
  have wakers : lateRace.wakers = [.due (10 * nanosPerSecond), .loading, .stopping] := rfl
  refine ⟨5 * nanosPerSecond, ⟨by decide, ?_⟩, 5 * nanosPerSecond, rfl, 5 * nanosPerSecond,
    ⟨rfl, iff_of_true rfl ⟨_, rfl, Nat.le_refl _⟩⟩, rfl⟩
  simp [wakers, Waker.GoesOff]
  decide

theorem slowFetches_bounded :
    ((awaitCurrentVersion (.ofSecs 10)).play
      (Program.noting (S := surroundings) fun _ => calm) []).2 = some () ∧
    InPace (slowFetches ++ woken) ∧
    Abandons (.ofSecs 10) (3 * nanosPerSecond) (some (5 * nanosPerSecond)) 0
      (slowFetches ++ woken) ∧
    5 * nanosPerSecond ≤ max 0 (5 * nanosPerSecond) + 3 * nanosPerSecond + 2 * nanosPerSecond ∧
    InTime (.ofSecs 10) (some (5 * nanosPerSecond)) 0 (4 * nanosPerSecond)
      (.suspend lateRace.wakers) ∧
    Left (.ofSecs 10) (3 * nanosPerSecond) (some (5 * nanosPerSecond)) 0 (5 * nanosPerSecond)
      (slowFetches ++ woken) ∧
    ∃ (start : Instant) (before : History surroundings), before <+: calmRun.1 ∧ ∀ later ended',
      Runs (run calmSetting calmJob) (before ++ later) ended' ↔
        ∃ waited advanced unlocked last,
          Runs (awaitCurrentVersion (.ofSecs 10)) waited () ∧
          later = waited ++ parting calmJob advanced unlocked last ∧
          ended' = { calmRun.2 with elapsed := .ofNanos (last - start) } := by
  obtain ⟨returns, bounded, called, left, same⟩ := awaitCurrentVersion_bounded (.ofSecs 10)
    (3 * nanosPerSecond) (some (5 * nanosPerSecond)) 0
  have steps := slowFetches_steps
  have last : Runs (lateRace.await 1 (10 * nanosPerSecond - 1 + 1)) _ _ := race_stopped
  have runs : Runs (awaitCurrentVersion (.ofSecs 10)) (slowFetches ++ woken) () :=
    steps.append (.call (last.bind _))
  have elapses := elapses_append.mpr ⟨_, slowFetches_elapse, woken_elapses⟩
  obtain ⟨paced, abandons, prompt⟩ := bounded _ _ runs
  have final : calmRun.2.fault ≠ some .requeued := by decide +kernel
  exact ⟨(returns _ rfl fun _ _ => calm_answers).mpr (by decide), paced, abandons,
    prompt _ elapses _ (.inr rfl), (called _ _ _ steps).2 _ slowFetches_elapse,
    left _ _ runs elapses, same _ _ _ _ calmRun_runs final⟩

end FollowerSync.Attempt
