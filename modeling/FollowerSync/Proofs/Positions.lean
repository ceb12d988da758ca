import FollowerSync.Proofs.Footprints

/-!
# Positions in the leader's log

The log is followed from where the copy of the shard ends, and from then on from the furthest
position that a round has reached, so nothing of it is skipped and no round goes back. The progress
that is reported counts a round when its lock is released.
-/

set_option autoImplicit false

namespace FollowerSync.Attempt
open Leader

def furthest (start : Tick) (ticks : List Tick) : Tick := ticks.foldl max start

structure Positions where
  copied : List Tick := []
  reached : List Tick := []
  /-- Where the round ended whose lock has not been cancelled yet. -/
  pending : Option Tick := none
  /-- Where the rounds ended whose lock was released. -/
  released : List Tick := []
  deriving DecidableEq

def Positions.after (p : Positions) : Event surroundings → Positions
  | ⟨.bulkSync .., .ok outcome⟩ => { p with copied := p.copied ++ [outcome.lastLogTick] }
  | ⟨.catchUp .., .ok outcome⟩ =>
    { p with
      reached := p.reached ++ [outcome.tickReached]
      pending := some outcome.tickReached }
  | ⟨.leader _ (.cancelLock ..) _, answer⟩ =>
    { p with
      pending := none
      released := p.released ++ if (Guard.released answer).isOk then p.pending.toList else [] }
  | _ => p

def positions (h : History surroundings) : Positions := h.foldl Positions.after {}

def Call.start? : Call → Option Tick
  | .catchUp _ start _ _ | .finalize _ start _ _ => some start
  | _ => none

/-- The log is to be followed from this position on: the shard was copied once, and no round got
further. -/
def Positions.Resume (p : Positions) (start : Tick) : Prop :=
  ∃ copied, p.copied = [copied] ∧ start = furthest copied p.reached

/-- The log is followed from the position on from which it is to be followed. -/
def PositionLaw (h : History surroundings) (c : Call) : Prop :=
  ∀ start, c.start? = some start → (positions h).Resume start

theorem positions_append (h : History surroundings) (e : Event surroundings) :
    positions (h ++ [e]) = (positions h).after e := by
  simp [positions]

/-!
## Positions only grow
-/

section
variable {a b : Tick}

theorem max_eq_ite (a b : Tick) : max a b = if a ≤ b then b else a := rfl

theorem le_max (a b : Tick) : a ≤ max a b := by
  rw [max_eq_ite]
  split
  · assumption
  · exact UInt64.le_refl a

theorem max_mono (le : a ≤ b) (t : Tick) : max a t ≤ max b t := by
  rw [max_eq_ite, max_eq_ite]
  simp only [UInt64.le_iff_toNat_le] at le ⊢
  split <;> split <;> omega

end

theorem furthest_append (start : Tick) (ticks : List Tick) (t : Tick) :
    furthest start (ticks ++ [t]) = max (furthest start ticks) t := by
  simp [furthest]

theorem furthest_le_append (start : Tick) (ticks more : List Tick) :
    furthest start ticks ≤ furthest start (ticks ++ more) := by
  induction more using List.reverseRecOn with
  | nil =>
    rw [List.append_nil]
    exact UInt64.le_refl _
  | append_singleton more t ih =>
    rw [← List.append_assoc, furthest_append]
    exact UInt64.le_trans ih (le_max _ t)

theorem Positions.after_grows (p : Positions) (e : Event surroundings) :
    p.copied <+: (p.after e).copied ∧ p.reached <+: (p.after e).reached := by
  unfold after
  split <;> simp

theorem positions_grow (h later : History surroundings) :
    (positions h).copied <+: (positions (h ++ later)).copied ∧
      (positions h).reached <+: (positions (h ++ later)).reached := by
  induction later using List.reverseRecOn with
  | nil => simp
  | append_singleton later e ih =>
    rw [← List.append_assoc, positions_append]
    have grown := (positions (h ++ later)).after_grows e
    exact ⟨ih.1.trans grown.1, ih.2.trans grown.2⟩

theorem Positions.Resume.le {h later : History surroundings} {start start' : Tick}
    (first : (positions h).Resume start) (last : (positions (h ++ later)).Resume start') :
    start ≤ start' := by
  obtain ⟨copied, once, rfl⟩ := first
  obtain ⟨copied', once', rfl⟩ := last
  obtain ⟨same, more, reached⟩ := positions_grow h later
  rw [once, once', List.cons_prefix_cons] at same
  rw [← reached, same.1]
  exact furthest_le_append copied' _ more

theorem Steps.starts_pairwise {α : Type} {p q : Act α} {es : History surroundings}
    (steps : Steps p es q)
    (law : ∀ es c next, Steps p es (.call c next) → PositionLaw es c) :
    (es.filterMap fun e => Call.start? e.call).Pairwise (· ≤ ·) := by
  induction es using List.reverseRecOn generalizing q with
  | nil => exact .nil
  | append_singleton es e ih =>
    obtain ⟨next, earlier⟩ := steps.before
    rw [List.filterMap_append, List.pairwise_append]
    refine ⟨ih earlier, by cases h : Call.start? e.call <;> simp [h], ?_⟩
    intro start mem start' last
    obtain ⟨e', mem, starts⟩ := List.mem_filterMap.mp mem
    obtain ⟨before, after, rfl⟩ := List.append_of_mem mem
    obtain ⟨next', first⟩ := earlier.before
    have starts' : Call.start? e.call = some start' := by simpa using last
    exact (law _ _ _ first start starts).le (law _ _ _ earlier start' starts')

/-!
## What the progress says
-/

def Fresh (g : Progress) (p : Positions) : Prop := g = {} ∧ p = {}

/-- The progress counts the rounds whose lock was released, and no other round is open. -/
structure Settled (g : Progress) (p : Positions) : Prop where
  closed : p.pending = none
  counted : g.tickReached = furthest 0 p.released
  within : g.tickReached ≤ g.lastLogTick

structure Placed (g : Progress) (p : Positions) : Prop extends Settled g p where
  resumes : p.Resume g.lastLogTick

def At (P : Progress → Positions → Prop) (j : Journal) (h : History surroundings) : Prop :=
  P j.progress (positions h)

theorem At.congr {P : Progress → Positions → Prop} {j j' : Journal} {h : History surroundings}
    (same : j'.progress = j.progress) (known : At P j h) : At P j' h := by
  unfold At
  rwa [same]

section
variable {g : Progress} {p : Positions} {t : Tick}

theorem zero_le (t : Tick) : 0 ≤ t := by
  rw [UInt64.le_iff_toNat_le]
  exact Nat.zero_le _

theorem Fresh.settled (fresh : Fresh g p) : Settled g p := by
  obtain ⟨rfl, rfl⟩ := fresh
  exact ⟨rfl, rfl, zero_le 0⟩

theorem Fresh.placed (fresh : Fresh g p) (t : Tick) :
    Placed { g with lastLogTick := t } { p with copied := p.copied ++ [t] } := by
  obtain ⟨rfl, rfl⟩ := fresh
  exact ⟨⟨rfl, rfl, zero_le t⟩, t, rfl, rfl⟩

theorem Fresh.settled_copied (fresh : Fresh g p) (t : Tick) :
    Settled g { p with copied := p.copied ++ [t] } := by
  obtain ⟨rfl, rfl⟩ := fresh
  exact ⟨rfl, rfl, zero_le 0⟩

theorem Placed.settled_unreleased (placed : Placed g p) (reached : List Tick) :
    Settled g { p with reached, pending := none } :=
  ⟨rfl, placed.counted, placed.within⟩

theorem Placed.advance (placed : Placed g p) (t : Tick) :
    Placed (g.advance t) { p with
      reached := p.reached ++ [t]
      pending := none
      released := p.released ++ [t] } := by
  obtain ⟨⟨_, counted, within⟩, copied, once, resumes⟩ := placed
  have reached : max g.tickReached t = furthest 0 (p.released ++ [t]) := by
    rw [furthest_append, counted]
  have last : max g.lastLogTick t = furthest copied (p.reached ++ [t]) := by
    rw [furthest_append, resumes]
  exact ⟨⟨rfl, reached, max_mono within t⟩, copied, once, last⟩

end

def Call.Level (c : Call) : Prop :=
  c.start? = none ∧ ∀ (p : Positions) r, p.pending = none → p.after ⟨c, r⟩ = p

theorem Call.Assists.level {c : Call} (assists : c.Assists) : c.Level := by
  cases c with
  | leader endpoint request limit =>
    cases request with
    | collectionCount | recalculateCount => exact ⟨rfl, fun _ _ _ => rfl⟩
    | _ => cases assists
  | bulkSync | catchUp | finalize => cases assists
  | _ => exact ⟨rfl, fun _ _ _ => rfl⟩

theorem Call.Looks.level {c : Call} (looks : c.Looks) : c.Level := looks.assists.level

theorem level_cancelLock (endpoint database : String) (lockId : UInt64) (clientId : String)
    (limit : Duration) :
    (Call.leader endpoint (.cancelLock database lockId clientId) limit).Level := by
  refine ⟨rfl, ?_⟩
  rintro ⟨copied, reached, pending, released⟩ r ⟨⟩
  simp [Positions.after]

theorem Call.Handshakes.level {mode : LockMode} {c : Call} (handshakes : c.Handshakes mode) :
    c.Level := by
  cases c with
  | leader endpoint request limit =>
    cases request with
    | newLockId | acquireLock => exact ⟨rfl, fun _ _ _ => rfl⟩
    | cancelLock => exact level_cancelLock ..
    | _ => cases handshakes
  | _ => cases handshakes

theorem level_stable {P : Progress → Positions → Prop}
    (closed : ∀ g p, P g p → p.pending = none) :
    Stage.Stable PositionLaw Call.Level (At P) where
  allowed := by
    rintro j h c known ⟨elsewhere, _⟩ start starts
    simp [elsewhere] at starts
  kept := by
    rintro j h c r known ⟨_, unmoved⟩
    unfold At at known ⊢
    rwa [positions_append, unmoved _ r (closed _ _ known)]

/-!
## What an attempt keeps
-/

section
variable {j : Journal} {h : History surroundings}

theorem Fresh.stable : Stage.Stable PositionLaw Call.Level (At Fresh) :=
  level_stable fun _ _ fresh => fresh.settled.closed

theorem Settled.stable : Stage.Stable PositionLaw Call.Level (At Settled) :=
  level_stable fun _ _ settled => settled.closed

theorem Placed.stable : Stage.Stable PositionLaw Call.Level (At Placed) :=
  level_stable fun _ _ placed => placed.closed

/-- A stage begun at a place leaves the next one a place, and settled progress if it fails. -/
abbrev Advances {α : Type} (s : Stage α) : Prop :=
  s.Leads PositionLaw (At Placed) fun _ => At Settled

theorem Stage.Preserves.advances {α : Type} {s : Stage α}
    (preserves : s.Preserves PositionLaw (At Placed)) : Advances s :=
  preserves.leads fun _ _ _ placed => placed.toSettled

variable (setting : Setting) (job : Job) (endpoint : String)

theorem prepare_keeps_fresh (fresh : At Fresh j h) :
    (prepare setting job).Keeps PositionLaw (fun _ => At Fresh) (fun _ => At Settled) j h := by
  have stable := Fresh.stable.mono fun _ (surveys : Call.Surveys job _) => surveys.assists.level
  have looked := Fresh.stable.mono fun _ => Call.Looks.level
  refine keeps_prepare setting job stable (fun _ _ _ => At.congr) (fun _ _ _ fresh => fresh.settled)
    ?_ fresh
  intro endpoint j h fresh
  have level : (Call.openTailingSyncer job.database endpoint job.leader).Level :=
    ⟨rfl, fun _ _ _ => rfl⟩
  have opened := Fresh.stable.kept j h _ () fresh level
  have stopping (answer : Bool) := looked.kept j _ .stopping answer opened trivial
  exact ⟨Fresh.stable.allowed j h _ fresh level, looked.allowed j _ .stopping opened trivial,
    (stopping true).settled, stopping false⟩

theorem copyShard_places (fresh : At Fresh j h) :
    (copyShard setting job endpoint).Keeps PositionLaw (fun _ => At Placed) (fun _ => At Settled)
      j h := by
  have level (c : Call) (elsewhere : c.start? = none) (h : History surroundings) :
      PositionLaw h c := by simp [PositionLaw, elsewhere]
  have named (answer : Except Fault Unit) :=
    Fresh.stable.kept j h (.setLeader job.leader) answer fresh ⟨rfl, fun _ _ _ => rfl⟩
  have opened := Fresh.stable.kept j _ (.openBulkSyncer job.database) () (named (.ok ()))
    ⟨rfl, fun _ _ _ => rfl⟩
  rw [keeps_copyShard]
  refine ⟨level _ rfl _, fun fault => (named (.error fault)).settled, level _ rfl _, level _ rfl _,
    ?failed, ?copied⟩
  case failed =>
    intro fault
    have settled := Settled.stable.mono fun _ => Call.Looks.level
    refine classify_preserves setting job settled fault _ _ ?_
    unfold At
    rw [positions_append]
    exact opened.settled
  case copied =>
    intro outcome
    refine ⟨fun _ => ?_, fun _ => ?_⟩ <;> unfold At <;> rw [positions_append]
    · exact opened.settled_copied outcome.lastLogTick
    · exact opened.placed outcome.lastLogTick

theorem acquireLock_advances (mode : LockMode) (ttl : Duration) :
    Advances (acquireLock setting job endpoint mode ttl) := by
  have handshakes := (acquire_handshakes endpoint (lockRequest setting job mode ttl) ttl
    setting.settings.cancelLockTimeout).mono fun _ => Call.Handshakes.level
  exact (classified_preserves setting job Placed.stable (fun _ => Call.Looks.level)
    handshakes).advances

theorem unlessStopping_advances : Advances Stage.unlessStopping := by
  intro j h placed
  have looked (answer : Bool) :=
    Placed.stable.kept j h .stopping answer placed ⟨rfl, fun _ _ _ => rfl⟩
  rw [Stage.keeps_unlessStopping]
  exact ⟨by simp [PositionLaw, Call.start?], (looked true).toSettled, looked false⟩

theorem softRound_advances (budget : Duration) :
    Advances (softRound setting job endpoint budget) := by
  refine unlessStopping_advances.bind fun _ => ?_
  refine (acquireLock_advances setting job endpoint .soft _).bind fun guard j h placed => ?_
  simp only [Stage.keeps_bind, Stage.keeps_get, Stage.keeps_act, ask_eq, Program.keeps_call,
    Program.keeps_done]
  refine ⟨?resumed, ?followed⟩
  case resumed =>
    rintro start ⟨⟩
    exact placed.resumes
  case followed =>
    rintro (fault | outcome)
    · have stable := Placed.stable
      have still : At Placed j (h ++ [⟨.catchUp job.shard j.progress.lastLogTick budget j.context,
          .error fault⟩]) := by
        unfold At
        rw [positions_append]
        exact placed
      have cancels : guard.releaseQuietly.Uses Call.Level :=
        ⟨level_cancelLock .., fun _ => trivial⟩
      have looks := stable.mono fun _ => Call.Looks.level
      simp only [Stage.keeps_bind, Stage.keeps_act, Stage.keeps_throw]
      refine (stable.keeps cancels still).mono fun _ h still => ?_
      refine (classify_preserves setting job looks fault j h still).mono ?_ ?_
      · exact fun _ _ _ placed => placed.toSettled
      · exact fun _ _ _ placed => placed.toSettled
    · simp only [Stage.keeps_bind, Stage.keeps_attempt, Stage.keeps_modify, Stage.keeps_pure,
        keeps_release]
      refine ⟨by simp [PositionLaw, Call.start?], fun answer => ?_⟩
      cases released : Guard.released answer with
      | ok =>
        change At Placed _ _
        unfold At
        rw [positions_append, positions_append]
        simpa [Positions.after, released, Except.isOk, Except.toBool]
          using placed.advance outcome.tickReached
      | error fault =>
        change At Settled _ _
        unfold At
        rw [positions_append, positions_append]
        simpa [Positions.after, released, Except.isOk, Except.toBool]
          using placed.settled_unreleased _

theorem catchUpSoftly_advances : Advances (catchUpSoftly setting job endpoint) :=
  catchUpSoftly_leads setting job endpoint (fun _ _ => id)
    (fun _ _ _ => by simp [PositionLaw, Call.start?]) (softRound_advances setting job endpoint)

theorem adoptTerm_preserves_placed : (adoptTerm job).Preserves PositionLaw (At Placed) := by
  refine .bind Stage.preserves_get fun j => .bind ?_ fun _ => ?_
  · exact Stage.preserves_attempt Placed.stable ⟨⟨rfl, fun _ _ _ => rfl⟩, fun _ => trivial⟩
  · exact Stage.preserves_act Placed.stable ⟨⟨rfl, fun _ _ _ => rfl⟩, fun _ => trivial⟩

theorem finalizeLog_preserves_placed :
    (finalizeLog setting job).Preserves PositionLaw (At Placed) := by
  intro j h placed
  have looks := Placed.stable.mono fun _ => Call.Looks.level
  simp only [finalizeLog, Stage.keeps_bind, Stage.keeps_get]
  refine keeps_classified setting job looks ⟨?resumed, fun answer => ?followed⟩
  case resumed =>
    rintro start ⟨⟩
    exact placed.resumes
  case followed =>
    have still : At Placed j (h ++ [⟨.finalize job.shard j.progress.lastLogTick
        j.progress.upperBound j.context, answer⟩]) := by
      unfold At
      rw [positions_append]
      exact placed
    cases answer <;> exact still

theorem register_preserves_placed (syncerId lockId : UInt64) :
    (register setting job endpoint syncerId lockId).Preserves PositionLaw (At Placed) := by
  have noted (f : Journal → Journal) (same : ∀ j, (f j).progress = j.progress) :
      (modify f : Stage Unit).Preserves PositionLaw (At Placed) :=
    Stage.preserves_modify fun j h => At.congr (same j)
  refine .bind (noted _ fun _ => rfl) fun _ => .bind ?counted fun checksum =>
    .bind (noted _ fun _ => rfl) fun _ => ?registered
  case counted =>
    exact Stage.preserves_attempt Placed.stable ⟨⟨rfl, fun _ _ _ => rfl⟩, fun _ => trivial⟩
  case registered =>
    exact Stage.preserves_attempt Placed.stable ⟨⟨rfl, fun _ _ _ => rfl⟩, fun _ => trivial⟩

theorem catchUpHard_advances (syncerId : UInt64) :
    Advances (catchUpHard setting job endpoint syncerId) := by
  have entered : Advances (Stage.enter .hardLockFinalize) := fun _ _ placed => placed
  refine entered.bind fun _ => (acquireLock_advances setting job endpoint .hard _).bind
    fun guard => ?_
  have bounded : Advances (modify fun j => { j with
      term := guard.grant.term
      progress := { j.progress with upperBound := guard.grant.lastLogTick } } : Stage Unit) :=
    fun _ _ placed => ⟨⟨placed.closed, placed.counted, placed.within⟩, placed.resumes⟩
  have registers := (adoptTerm_preserves_placed job).bind fun _ =>
    (finalizeLog_preserves_placed setting job).bind fun _ =>
      register_preserves_placed setting job endpoint syncerId guard.lockId
  have cancels : guard.releaseQuietly.Uses Call.Level := ⟨level_cancelLock .., fun _ => trivial⟩
  have repairs := Placed.stable.mono fun _ (repairs : Call.Repairs _) => repairs.assists.level
  refine bounded.bind fun _ => Stage.Preserves.advances ?_
  exact (Stage.preserves_result registers).bind fun result =>
    (Stage.preserves_act Placed.stable cancels).bind fun _ =>
      concludeHardLock_preserves setting job repairs endpoint result

theorem work_keeps_positions (fresh : At Fresh j h) :
    (work setting job).Keeps PositionLaw (fun _ => At Settled) (fun _ => At Settled) j h := by
  have waits := Fresh.stable.mono fun _ (waits : Call.Waits job _) => waits.assists.level
  have looks := Fresh.stable.mono fun _ => Call.Looks.level
  have stoodBy := standBy_preserves setting job waits looks (fun _ _ _ => id) j h fresh
  rw [work_eq, Stage.keeps_bind]
  refine stoodBy.mono (fun _ j h fresh => ?_) fun _ _ _ fresh => fresh.settled
  rw [Stage.keeps_bind]
  refine (prepare_keeps_fresh setting job fresh).mono (fun endpoint j h fresh => ?_) fun _ _ _ => id
  rw [Stage.keeps_bind]
  refine (copyShard_places setting job endpoint fresh).mono (fun syncerId j h placed => ?_)
    fun _ _ _ => id
  have followed := (catchUpSoftly_advances setting job endpoint).bind fun _ =>
    unlessStopping_advances.bind fun _ => catchUpHard_advances setting job endpoint syncerId
  exact (followed j h placed).mono (fun _ _ _ placed => placed.toSettled) fun _ _ _ => id

theorem run_keeps_positionLaw :
    (run setting job).Keeps PositionLaw
      (fun report h => Settled report.progress (positions h)) [] := by
  have closes := Settled.stable.mono fun _ (closes : Call.Closes job _) => closes.assists.level
  have begins : PositionLaw [] .now := fun _ => nofun
  refine (keeps_run_of_stable setting job begins (fun _ => closes) fun began => ?_).mono ?_
  · exact work_keeps_positions setting job ⟨rfl, rfl⟩
  · rintro _ h ⟨j, fault, ⟨elapsed, rfl⟩, settled⟩
    exact settled

/-- An attempt follows the log from the furthest position it knows of and never from an earlier
one, and its report says how far it got in the rounds whose lock was released. -/
theorem run_follows_log_forward (es : History surroundings) :
    (∀ c next start, Steps (run setting job) es (.call c next) → c.start? = some start →
      (positions es).Resume start) ∧
    (∀ q, Steps (run setting job) es q →
      (es.filterMap fun e => Call.start? e.call).Pairwise (· ≤ ·)) ∧
    ∀ report, Runs (run setting job) es report →
      report.progress.tickReached = furthest 0 (positions es).released ∧
        report.progress.tickReached ≤ report.progress.lastLogTick := by
  have kept := run_keeps_positionLaw setting job
  have law (es : History surroundings) (c : Call) (next : c.Reply → Act Report)
      (steps : Steps (run setting job) es (.call c next)) : PositionLaw es c :=
    kept.allowed steps
  refine ⟨fun c next start steps => law es c next steps start, ?_, ?_⟩
  · intro q steps
    exact Steps.starts_pairwise steps law
  · intro report runs
    have settled := kept.ended runs
    rw [List.nil_append] at settled
    exact ⟨settled.counted, settled.within⟩

end

def receding (_ : History surroundings) : (c : Call) → Option c.Reply
  | .catchUp _ start _ _ => some (.ok ⟨if start = 20 then 50 else 30, true⟩)
  | _ => none

theorem recedingRun_follows_log_forward :
    let es := (troubledRun receding).1
    (positions es).reached = [50, 30] ∧
    (∃ before c next, Steps (run calmSetting calmJob) before (.call c next) ∧
      c.start? = some 50 ∧ (positions before).Resume 50) ∧
    (es.filterMap fun e => Call.start? e.call) = [20, 50, 50] ∧
    (es.filterMap fun e => Call.start? e.call).Pairwise (· ≤ ·) ∧
    ∃ report, Runs (run calmSetting calmJob) es report ∧
      report.progress.tickReached = furthest 0 (positions es).released ∧
      report.progress.tickReached ≤ report.progress.lastLogTick := by
  intro es
  have ends : (troubledRun receding).2.map Report.fault = some none := by decide +kernel
  obtain ⟨report, runs, _⟩ := troubledRun_ends receding ends
  have resumed : ∃ e ∈ es, Call.start? e.call = some 50 := by decide +kernel
  obtain ⟨e, mem, starts⟩ := resumed
  obtain ⟨before, after, split⟩ := List.append_of_mem mem
  have run : Runs (run calmSetting calmJob) (before ++ e :: after) report := split ▸ runs
  obtain ⟨next, steps⟩ := Steps.before run
  have law := run_follows_log_forward calmSetting calmJob es
  have earlier := run_follows_log_forward calmSetting calmJob before
  exact ⟨by decide +kernel, ⟨before, e.call, next, steps, starts, earlier.1 _ _ _ steps starts⟩,
    by decide +kernel, law.2.1 _ runs, report, runs, law.2.2 _ runs⟩

end FollowerSync.Attempt
