import FollowerSync.Attempt.Run
import FollowerSync.Proofs.Histories

/-!
# Stages and their histories

A stage ends with a value or a fault, and in both cases with a journal. `s.Keeps ok Q E j h` says
of a stage `s` begun with the journal `j` that its calls are allowed by `ok`, that `Q` holds at the
end if it succeeds, and that `E` holds if it fails. For each way to build a stage one equivalence
reduces this to the parts.
-/

set_option autoImplicit false

namespace FollowerSync.Attempt

theorem forall_answer {α : Type} {P : Except Fault α → Prop} :
    (∀ r, P r) ↔ (∀ a, P (.ok a)) ∧ ∀ fault, P (.error fault) := by
  constructor
  · intro h
    exact ⟨fun a => h _, fun fault => h _⟩
  · rintro ⟨h, h'⟩ (fault | a)
    · exact h' fault
    · exact h a

@[simp] theorem ask_eq (c : Call) : ask c = Program.call (S := surroundings) c .done := rfl

@[simp] theorem stop_bind {α β : Type} (reason : Halt) (f : α → Act β) :
    Program.bind (stop reason) f = stop reason := by
  unfold stop
  rw [Program.bind_call]
  congr 1
  exact funext nofun

@[simp] theorem uses_stop {α : Type} {K : Call → Prop} (reason : Halt) :
    (stop reason : Act α).Uses K ↔ K (.halt reason) := by
  unfold stop
  rw [Program.uses_call]
  exact and_iff_left nofun

theorem play_stop {α σ : Type} (reason : Halt) (answer : (c : Call) → σ → σ × Option c.Reply)
    (s : σ) : ((stop reason : Act α).play answer s).2 = none := by
  unfold stop Program.play
  split
  · rename_i r _
    exact nomatch r
  · rfl

namespace Stage
variable {α β : Type}

def ending (Q : α → Journal → History surroundings → Prop)
    (E : Fault → Journal → History surroundings → Prop) :
    Except Fault α × Journal → History surroundings → Prop
  | (.ok a, j), h => Q a j h
  | (.error fault, j), h => E fault j h

def Keeps (ok : History surroundings → Call → Prop)
    (Q : α → Journal → History surroundings → Prop)
    (E : Fault → Journal → History surroundings → Prop)
    (s : Stage α) (j : Journal) (h : History surroundings) : Prop :=
  Program.Keeps ok (ending Q E) (s.run.run j) h

variable {ok : History surroundings → Call → Prop}
  {Q : α → Journal → History surroundings → Prop}
  {R : β → Journal → History surroundings → Prop}
  {E : Fault → Journal → History surroundings → Prop}
  {s : Stage α} {j : Journal} {h : History surroundings}

theorem run_act (p : Act α) : (act p).run.run j = p.bind fun a => .done (.ok a, j) := by
  change (p.bind fun a => .done (a, j)).bind (fun r => .done (Except.ok r.1, r.2)) = _
  rw [Program.bind_bind]
  rfl

theorem run_result :
    (result s).run.run j = (s.run.run j).bind fun r => .done (.ok r.1, r.2) := rfl

@[simp] theorem keeps_pure (a : α) : (pure a : Stage α).Keeps ok Q E j h ↔ Q a j h := Iff.rfl

@[simp] theorem keeps_throw (fault : Fault) :
    (throw fault : Stage α).Keeps ok Q E j h ↔ E fault j h := Iff.rfl

@[simp] theorem keeps_bind (f : α → Stage β) :
    (s >>= f).Keeps ok R E j h ↔ s.Keeps ok (fun a j h => (f a).Keeps ok R E j h) E j h := by
  unfold Keeps
  rw [ExceptT.run_bind, StateT.run_bind, Program.bind_eq, Program.keeps_bind]
  refine Program.keeps_congr ?_
  rintro ⟨fault | a, j⟩ h <;> rfl

@[simp] theorem keeps_ite {c : Prop} [Decidable c] {t : Stage α} :
    (if c then s else t).Keeps ok Q E j h ↔
      (c → s.Keeps ok Q E j h) ∧ (¬c → t.Keeps ok Q E j h) := by
  split <;> simp_all

@[simp] theorem keeps_get (Q : Journal → Journal → History surroundings → Prop) :
    (get : Stage Journal).Keeps ok Q E j h ↔ Q j j h := Iff.rfl

@[simp] theorem keeps_modify (f : Journal → Journal)
    (Q : Unit → Journal → History surroundings → Prop) :
    (modify f : Stage Unit).Keeps ok Q E j h ↔ Q () (f j) h := Iff.rfl

@[simp] theorem keeps_enter (phase : Phase) (Q : Unit → Journal → History surroundings → Prop) :
    (enter phase).Keeps ok Q E j h ↔ Q () { j with phase } h := Iff.rfl

@[simp] theorem keeps_act (p : Act α) :
    (act p).Keeps ok Q E j h ↔ p.Keeps ok (fun a h => Q a j h) h := by
  unfold Keeps
  rw [run_act, Program.keeps_bind]
  rfl

@[simp] theorem keeps_attempt (p : Act (Except Fault α)) :
    (attempt p).Keeps ok Q E j h ↔
      p.Keeps ok (fun r h => ending Q E (r, j) h) h := by
  unfold attempt
  rw [keeps_bind, keeps_act]
  refine Program.keeps_congr ?_
  rintro (fault | a) h <;> rfl

@[simp] theorem keeps_result (Q : Except Fault α → Journal → History surroundings → Prop) :
    (result s).Keeps ok Q E j h ↔
      s.Keeps ok (fun a => Q (.ok a)) (fun fault => Q (.error fault)) j h := by
  unfold Keeps
  rw [run_result, Program.keeps_bind]
  refine Program.keeps_congr ?_
  rintro ⟨fault | a, j⟩ h <;> rfl

@[simp] theorem keeps_unlessStopping (Q : Unit → Journal → History surroundings → Prop) :
    unlessStopping.Keeps ok Q E j h ↔ ok h .stopping ∧
      E .shuttingDown j (h ++ [⟨.stopping, true⟩]) ∧ Q () j (h ++ [⟨.stopping, false⟩]) := by
  unfold unlessStopping
  rw [keeps_bind, keeps_act, ask_eq, Program.keeps_call, Bool.forall_bool]
  exact and_congr_right fun _ => And.comm

theorem Keeps.mono {Q' : α → Journal → History surroundings → Prop}
    {E' : Fault → Journal → History surroundings → Prop} (k : s.Keeps ok Q E j h)
    (success : ∀ a j h, Q a j h → Q' a j h) (failure : ∀ fault j h, E fault j h → E' fault j h) :
    s.Keeps ok Q' E' j h := by
  refine Program.Keeps.mono k ?_
  rintro ⟨fault | a, j⟩ h
  · exact failure fault j h
  · exact success a j h

theorem Keeps.and {ok' : History surroundings → Call → Prop}
    {Q' : α → Journal → History surroundings → Prop}
    {E' : Fault → Journal → History surroundings → Prop} (k : s.Keeps ok Q E j h)
    (k' : s.Keeps ok' Q' E' j h) :
    s.Keeps ok (fun a j h => Q a j h ∧ Q' a j h) (fun fault j h => E fault j h ∧ E' fault j h)
      j h := by
  refine Program.Keeps.mono (Program.Keeps.and k k') ?_
  rintro ⟨fault | a, j⟩ h both <;> exact both

def Uses (K : Call → Prop) (s : Stage α) : Prop := ∀ j, Program.Uses K (s.run.run j)

variable {K : Call → Prop}

@[simp] theorem uses_pure (a : α) : (pure a : Stage α).Uses K := fun _ => trivial

@[simp] theorem uses_throw (fault : Fault) : (throw fault : Stage α).Uses K := fun _ => trivial

@[simp] theorem uses_get : (get : Stage Journal).Uses K := fun _ => trivial

@[simp] theorem uses_modify (f : Journal → Journal) : (modify f : Stage Unit).Uses K :=
  fun _ => trivial

@[simp] theorem uses_enter (phase : Phase) : (enter phase).Uses K := fun _ => trivial

theorem Uses.bind {f : α → Stage β} (u : s.Uses K) (rest : ∀ a, (f a).Uses K) :
    (s >>= f).Uses K := by
  intro j
  rw [ExceptT.run_bind, StateT.run_bind, Program.bind_eq]
  refine (u j).bind ?_
  rintro ⟨fault | a, j⟩
  · trivial
  · exact rest a j

theorem uses_act {p : Act α} (u : p.Uses K) : (act p).Uses K := by
  intro j
  rw [run_act]
  exact u.bind fun a => trivial

theorem uses_attempt {p : Act (Except Fault α)} (u : p.Uses K) : (attempt p).Uses K := by
  refine (uses_act u).bind ?_
  rintro (fault | a) <;> simp

theorem uses_result (u : s.Uses K) : (result s).Uses K := by
  intro j
  rw [run_result]
  exact (u j).bind fun r => trivial

theorem Uses.mono {K' : Call → Prop} (u : s.Uses K) (wider : ∀ c, K c → K' c) : s.Uses K' :=
  fun j => (u j).mono wider

/-- Calls in `K` are allowed where `I` holds, and `I` holds after them. -/
structure Stable (ok : History surroundings → Call → Prop) (K : Call → Prop)
    (I : Journal → History surroundings → Prop) : Prop where
  allowed : ∀ j h c, I j h → K c → ok h c
  kept : ∀ j h c r, I j h → K c → I j (h ++ [⟨c, r⟩])

theorem Stable.mono {K' : Call → Prop} {I : Journal → History surroundings → Prop}
    (stable : Stable ok K I) (narrower : ∀ c, K' c → K c) : Stable ok K' I where
  allowed := fun j h c start called => stable.allowed j h c start (narrower c called)
  kept := fun j h c r start called => stable.kept j h c r start (narrower c called)

theorem Stable.of_marks {μ : Type} {mark : Event surroundings → Option μ} (P : List μ → Prop)
    (allowed : ∀ h c, K c → ok h c) (unmarked : ∀ c, K c → ∀ r, mark ⟨c, r⟩ = none) :
    Stable ok K fun _ h => P (marks mark h) where
  allowed := fun _ h c _ => allowed h c
  kept := by
    intro _ h c r known called
    rwa [marks_of_none rfl (unmarked c called r)]

theorem Stable.keeps {I : Journal → History surroundings → Prop} (stable : Stable ok K I)
    {p : Act α} (u : p.Uses K) (start : I j h) : p.Keeps ok (fun _ => I j) h :=
  u.keeps (stable.allowed j) (stable.kept j) start

/-- Begun where `I` holds, the stage ends where `I` holds, whether or not it fails. -/
def Preserves (ok : History surroundings → Call → Prop)
    (I : Journal → History surroundings → Prop) (s : Stage α) : Prop :=
  ∀ j h, I j h → s.Keeps ok (fun _ => I) (fun _ => I) j h

section
variable {I : Journal → History surroundings → Prop}

@[simp] theorem preserves_pure (a : α) : (pure a : Stage α).Preserves ok I := fun _ _ start => start

@[simp] theorem preserves_throw (fault : Fault) : (throw fault : Stage α).Preserves ok I :=
  fun _ _ start => start

@[simp] theorem preserves_get : (get : Stage Journal).Preserves ok I := fun _ _ start => start

theorem preserves_modify {f : Journal → Journal} (kept : ∀ j h, I j h → I (f j) h) :
    (modify f : Stage Unit).Preserves ok I := kept

theorem Preserves.bind {f : α → Stage β} (first : s.Preserves ok I)
    (rest : ∀ a, (f a).Preserves ok I) : (s >>= f).Preserves ok I := by
  intro j h start
  rw [keeps_bind]
  exact (first j h start).mono (fun a j h mid => rest a j h mid) fun _ _ _ => id

theorem preserves_act (stable : Stable ok K I) {p : Act α} (u : p.Uses K) :
    (act p).Preserves ok I := by
  intro j h start
  rw [keeps_act]
  exact stable.keeps u start

theorem preserves_attempt (stable : Stable ok K I) {p : Act (Except Fault α)} (u : p.Uses K) :
    (attempt p).Preserves ok I := by
  refine (preserves_act stable u).bind ?_
  rintro (fault | a) <;> simp

theorem preserves_result (inside : s.Preserves ok I) : (result s).Preserves ok I := by
  intro j h start
  rw [keeps_result]
  exact inside j h start

/-- Begun where `I` holds, the stage ends where `I` holds, or fails as `E` says. -/
def Leads (ok : History surroundings → Call → Prop) (I : Journal → History surroundings → Prop)
    (E : Fault → Journal → History surroundings → Prop) (s : Stage α) : Prop :=
  ∀ j h, I j h → s.Keeps ok (fun _ => I) E j h

theorem Leads.bind {f : α → Stage β} (first : s.Leads ok I E) (rest : ∀ a, (f a).Leads ok I E) :
    (s >>= f).Leads ok I E := by
  intro j h start
  rw [keeps_bind]
  exact (first j h start).mono rest fun _ _ _ => id

theorem Preserves.leads (preserves : s.Preserves ok I) (failed : ∀ fault j h, I j h → E fault j h) :
    s.Leads ok I E :=
  fun j h start => (preserves j h start).mono (fun _ _ _ => id) failed

end

theorem Uses.preserves {I : History surroundings → Prop} (u : s.Uses K)
    (stable : Stable ok K fun _ => I) : s.Preserves ok fun _ => I := by
  intro j h start
  refine ((u j).keeps (stable.allowed j) (stable.kept j) start).mono ?_
  rintro ⟨fault | a, j⟩ h last <;> exact last

/-- What no call of the first stage disturbs holds where the next one begins. -/
theorem Uses.andThen {I : History surroundings → Prop} {f : α → Stage β} (u : s.Uses K)
    (stable : Stable ok K fun _ => I) (start : I h) (failed : ∀ fault j h, I h → E fault j h)
    (rest : ∀ a j h, I h → (f a).Keeps ok R E j h) : (s >>= f).Keeps ok R E j h := by
  rw [keeps_bind]
  exact (u.preserves stable j h start).mono rest failed

end Stage

/-- A handshake fetches an id and asks for the lock under it. A refusal that may have reached the
leader is followed by a cancellation, whatever comes of that. -/
theorem keeps_acquire {ok : History surroundings → Call → Prop} {h : History surroundings}
    {Q : Except Fault Guard → History surroundings → Prop} (endpoint : String)
    (request : Leader.LockRequest) (limit cancelTimeout : Duration) :
    (Guard.acquire endpoint request limit cancelTimeout).Keeps ok Q h ↔
      let fetch : Call := .leader endpoint (.newLockId request.database) limit
      ok h fetch ∧ (∀ fault, Q (.error fault) (h ++ [⟨fetch, .error fault⟩])) ∧
      ∀ lockId : UInt64,
        let h := h ++ [⟨fetch, .ok lockId⟩]
        let lock : Call := .leader endpoint (.acquireLock { request with lockId }) limit
        let cancel : Call :=
          .leader endpoint (.cancelLock request.database lockId request.clientId) cancelTimeout
        ok h lock ∧
        (∀ grant, Q (.ok { endpoint, database := request.database, clientId := request.clientId
                           lockId, grant, cancelTimeout }) (h ++ [⟨lock, .ok grant⟩])) ∧
        ∀ fault : Fault,
          let h := h ++ [⟨lock, .error fault⟩]
          (fault.isConnectFailure = true → Q (.error fault) h) ∧
          (¬fault.isConnectFailure = true →
            ok h cancel ∧ ∀ r, Q (.error fault) (h ++ [⟨cancel, r⟩])) := by
  refine and_congr_right fun _ => (forall_answer.trans And.comm).trans ?_
  refine and_congr_right fun _ => forall_congr' fun lockId => and_congr_right fun _ => ?_
  refine forall_answer.trans (and_congr_right fun _ => forall_congr' fun fault => ?_)
  change Program.Keeps _ _ (if fault.isConnectFailure then _ else _) _ ↔ _
  exact Program.keeps_ite

theorem keeps_release {ok : History surroundings → Call → Prop} {h : History surroundings}
    {Q : Except Fault Unit → History surroundings → Prop} (guard : Guard) :
    guard.release.Keeps ok Q h ↔
      let cancel : Call := .leader guard.endpoint
        (.cancelLock guard.database guard.lockId guard.clientId) guard.cancelTimeout
      ok h cancel ∧ ∀ answer, Q (Guard.released answer) (h ++ [⟨cancel, answer⟩]) := Iff.rfl

theorem keeps_releaseQuietly {ok : History surroundings → Call → Prop} {h : History surroundings}
    {Q : Unit → History surroundings → Prop} (guard : Guard) :
    guard.releaseQuietly.Keeps ok Q h ↔
      let cancel : Call := .leader guard.endpoint
        (.cancelLock guard.database guard.lockId guard.clientId) guard.cancelTimeout
      ok h cancel ∧ ∀ answer, Q () (h ++ [⟨cancel, answer⟩]) :=
  (Program.keeps_bind _).trans (keeps_release guard)

/-- What remains of an attempt when its work is done: the books are closed and the clock is read. -/
def Concludes (ok : History surroundings → Call → Prop) (Q : Report → History surroundings → Prop)
    (setting : Setting) (job : Job) (began : Instant) (fault : Option Fault) (j : Journal)
    (h : History surroundings) : Prop :=
  (close setting job fault).Keeps ok (fun _ h => ok h .now ∧ ∀ ended : Instant,
    Q (report job j fault (.ofNanos (ended - began))) (h ++ [⟨.now, ended⟩])) h

theorem keeps_run {ok : History surroundings → Call → Prop}
    {Q : Report → History surroundings → Prop} {h : History surroundings} (setting : Setting)
    (job : Job) :
    (run setting job).Keeps ok Q h ↔ ok h .now ∧ ∀ began : Instant,
      (work setting job).Keeps ok (fun _ => Concludes ok Q setting job began none)
        (fun fault => Concludes ok Q setting job began (some fault)) {} (h ++ [⟨.now, began⟩]) := by
  simp only [run, ask_eq, Program.bind_eq, Program.bind_call, Program.bind_done, Program.keeps_call,
    Program.keeps_bind]
  refine and_congr_right fun _ => forall_congr' fun began => Program.keeps_congr ?_
  rintro ⟨fault | _, j⟩ h <;> rfl

/-!
## A calm attempt

Surroundings in which nothing goes wrong: the shard is copied, the end of the log is reached in one
round, and the leader accepts the registration.
-/

def calm : (c : Call) → Option c.Reply
  | .plannedServers _ => some (.ok ["L", "F"])
  | .currentServers _ => some (.ok ["L"])
  | .serverEndpoint _ => some (.ok "tcp://L")
  | .fetchVersion _ => some (.ok 1)
  | .leader _ (.newLockId _) _ => some (.ok (7 : UInt64))
  | .leader _ (.acquireLock _) _ => some (.ok (⟨some 3, some 50⟩ : Leader.LockGrant))
  | .leader _ (.cancelLock ..) _ | .leader _ (.addFollower _) _ => some (.ok ())
  | .leader _ (.collectionCount ..) _ | .leader _ (.recalculateCount ..) _ =>
    some (.ok (10 : UInt64))
  | .lookupShard _ => some (.ok true)
  | .documentCount | .recountDocuments => some (.ok 10)
  | .bulkSync request _ => some (.ok ⟨42, 20, request.restrictCollections⟩)
  | .catchUp _ start _ _ => some (.ok ⟨start + 10, false⟩)
  | .setLeader _ | .finalize .. => some (.ok ())
  | .upkeep op => some (Maintenance.Store.perform {} op).1
  | .stopping => some false
  | .now => some 0
  | .awaitVersion .. => some (some (.ok ()))
  | .openBulkSyncer _ | .openTailingSyncer .. | .followLeader _ | .sleep _ | .suspend _ => some ()
  | .draw => some true
  | .halt _ => none

def calmJob : Job := { database := "db", shard := "s1", planId := "9", leader := "L" }

def calmSetting : Setting where
  server := "F"
  rebootId := 1
  patience := 1
  settings := {
    attemptTimeout := none
    readinessPoll := .ofSecs 1
    softLockMaxRounds := 2
    softLockTimeout := .ofSecs 10
    softLockDutyCycle := .ofRatio false 1 2
    hardLockTimeout := .ofSecs 10
    cancelLockTimeout := .ofSecs 10
    addFollowerTimeout := .ofSecs 10
    leaderCountTimeout := .ofSecs 10
    leaderRecountTimeout := .ofSecs 10
    requeueDocDiffThreshold := 10
    backoffFailureThreshold := 4
    backoffMax := .ofSecs 15
    backoffStep := .ofSecs 1
    currentVersionWait := .ofSecs 10
    longBulkSync := .ofSecs 10 }

theorem calm_isSome : ((run calmSetting calmJob).follow calm).isSome := by decide +kernel

def calmRun : History surroundings × Report := Option.get _ calm_isSome

theorem calm_follows : (run calmSetting calmJob).follow calm = some calmRun :=
  (Option.some_get _).symm

theorem calmRun_runs : Runs (run calmSetting calmJob) calmRun.1 calmRun.2 :=
  Program.runs_of_follow calm_follows

/-!
## Attempts in trouble

The surroundings are calm but for some answers, which may rest on what was called before.
-/

section
variable (trouble : History surroundings → (c : Call) → Option c.Reply)

def troubledRun : History surroundings × Option Report :=
  (run calmSetting calmJob).play
    (Program.noting (S := surroundings) fun h c => (trouble h c).or (calm c)) []

theorem troubledRun_runs {report : Report} (ended : (troubledRun trouble).2 = some report) :
    Runs (run calmSetting calmJob) (troubledRun trouble).1 report :=
  Program.runs_of_played ended

theorem troubledRun_ends {fault : Option Fault}
    (ends : (troubledRun trouble).2.map Report.fault = some fault) :
    ∃ report, Runs (run calmSetting calmJob) (troubledRun trouble).1 report ∧
      report.fault = fault := by
  obtain ⟨report, ended, same⟩ := Option.map_eq_some_iff.mp ends
  exact ⟨report, troubledRun_runs trouble ended, same⟩

end

end FollowerSync.Attempt
