import FollowerSync.Proofs.Footprints

set_option autoImplicit false

namespace FollowerSync.Attempt
open Leader

def Call.fetchesLockId : Call → Bool
  | .leader _ (.newLockId _) _ => true
  | _ => false

def Call.asksHardLock : Call → Bool
  | .leader _ (.acquireLock lock) _ => lock.mode = .hard
  | _ => false

def Call.namesLeader : Call → Bool
  | .setLeader _ => true
  | _ => false

def Call.settles : Call → Bool
  | .finalize .. | .leader _ (.addFollower _) _ => true
  | _ => false

def looked : Event surroundings → Option Bool
  | ⟨.stopping, stopping⟩ => some stopping
  | _ => none

/-- The server is asked to stop when so many calls have been made, inside the last of them or, if
there is none, before the run. A look tells whether it was asked, and takes no time in which it could
be. -/
def StopsAt (moment : Nat) (h : History surroundings) : Prop :=
  ∀ n < h.length, ∀ stopping, h[n]?.bind looked = some stopping →
    (stopping = true ↔ moment ≤ n) ∧ moment ≠ n + 1

def StartsHardLock (h : History surroundings) (n : Nat) : Prop :=
  (h[n]?.any fun e => Call.fetchesLockId e.call) = true ∧
    (h[n + 1]?.any fun e => Call.asksHardLock e.call) = true

def Heeded (h : History surroundings) : Prop := h.getLast? = some ⟨.stopping, false⟩

def Named (h : History surroundings) : Prop := ∃ e ∈ h, Call.namesLeader e.call = true

def HardLockStarted (h : History surroundings) : Prop := ∃ n, StartsHardLock h n

/-- A success has the handshake for the hard lock behind it. -/
def Licensed (fault : Option Fault) (h : History surroundings) : Prop :=
  fault = none → HardLockStarted h

structure ShutdownLaw (h : History surroundings) (c : Call) : Prop where
  fetches : c.fetchesLockId = true → Heeded h
  names : c.namesLeader = true → Named h ∨ Heeded h
  settles : c.settles = true → HardLockStarted h

section
variable {h later : History surroundings} {n moment : Nat}

theorem StopsAt.take (stops : StopsAt moment h) (m : Nat) : StopsAt moment (h.take m) := by
  intro n lt stopping told
  rw [List.length_take] at lt
  rw [List.getElem?_take_of_lt (by omega)] at told
  exact stops n (by omega) stopping told

theorem StopsAt.of_heeded (stops : StopsAt moment h) (heeded : Heeded h) : h.length < moment := by
  obtain ⟨before, rfl⟩ := List.getLast?_eq_some_iff.mp heeded
  obtain ⟨asked, between⟩ := stops before.length (by simp) false (by simp [looked])
  have later : ¬moment ≤ before.length := by simpa using asked
  simp only [List.length_append, List.length_singleton]
  omega

theorem any_getElem?_append {p : Event surroundings → Bool} (found : h[n]?.any p = true) :
    (h ++ later)[n]?.any p = true := by
  obtain ⟨e, at_n, holds⟩ := (Option.any_eq_true _ _).mp found
  obtain ⟨lt, rfl⟩ := List.getElem?_eq_some_iff.mp at_n
  rwa [List.getElem?_append_left lt]

theorem HardLockStarted.append (started : HardLockStarted h) (later : History surroundings) :
    HardLockStarted (h ++ later) := by
  obtain ⟨n, fetches, asks⟩ := started
  exact ⟨n, any_getElem?_append fetches, any_getElem?_append asks⟩

theorem Licensed.append {fault : Option Fault} (licensed : Licensed fault h)
    (later : History surroundings) : Licensed fault (h ++ later) :=
  fun success => (licensed success).append later

theorem hardLockStarted_of_handshake {first second : Event surroundings}
    (fetches : Call.fetchesLockId first.call = true) (asks : Call.asksHardLock second.call = true) :
    HardLockStarted (h ++ [first] ++ [second]) := by
  refine ⟨h.length, ?_, ?_⟩
  · simp [fetches]
  · simp [asks]

theorem Named.append (named : Named h) (later : History surroundings) : Named (h ++ later) := by
  obtain ⟨e, mem, names⟩ := named
  exact ⟨e, List.mem_append_left _ mem, names⟩

theorem named_of_last {e : Event surroundings} (names : Call.namesLeader e.call = true) :
    Named (h ++ [e]) := ⟨e, by simp, names⟩

end

/-- Calls that a server that stops may still make. -/
def Call.Free (c : Call) : Prop :=
  c.fetchesLockId = false ∧ c.namesLeader = false ∧ c.settles = false

theorem Call.Assists.free {c : Call} (assists : c.Assists) : c.Free := by
  cases c with
  | leader endpoint request limit =>
    cases request with
    | collectionCount | recalculateCount => exact ⟨rfl, rfl, rfl⟩
    | _ => cases assists
  | setLeader | finalize => cases assists
  | _ => exact ⟨rfl, rfl, rfl⟩

theorem Call.FollowsHeld.free {c : Call} (held : c.FollowsHeld) : c.Free := by
  cases c with
  | leader endpoint request limit =>
    cases request with
    | cancelLock => exact ⟨rfl, rfl, rfl⟩
    | _ => cases held
  | setLeader | finalize => cases held
  | _ => exact ⟨rfl, rfl, rfl⟩

theorem Call.Free.law {c : Call} (free : c.Free) (h : History surroundings) : ShutdownLaw h c where
  fetches := by simp [free.1]
  names := by simp [free.2.1]
  settles := by simp [free.2.2]

section
variable {P : History surroundings → Prop} {j : Journal} {h : History surroundings}

theorem free_stable (lasts : ∀ h e, P h → P (h ++ [e])) :
    Stage.Stable ShutdownLaw Call.Free fun _ => P where
  allowed := fun _ h _ _ free => free.law h
  kept := fun _ h c r known _ => lasts h ⟨c, r⟩ known

theorem looks_stable (lasts : ∀ h e, P h → P (h ++ [e])) :
    Stage.Stable ShutdownLaw Call.Looks fun _ => P :=
  (free_stable lasts).mono fun _ looks => looks.assists.free

theorem registers_stable :
    Stage.Stable ShutdownLaw Call.Registers fun _ h => Named h ∧ HardLockStarted h where
  allowed := by
    rintro _ h c ⟨named, started⟩ registers
    refine ⟨?_, fun _ => .inl named, fun _ => started⟩
    cases c with
    | leader endpoint request limit =>
      cases request with
      | newLockId => cases registers
      | _ => exact nofun
    | _ => exact nofun
  kept := by
    rintro _ h c r ⟨named, started⟩ _
    exact ⟨named.append _, started.append _⟩

variable (setting : Setting) (job : Job) (endpoint : String)

theorem acquireLock_heeds (mode : LockMode) (ttl : Duration) (lasts : ∀ h e, P h → P (h ++ [e]))
    (heeded : Heeded h) (known : P h) :
    (acquireLock setting job endpoint mode ttl).Keeps ShutdownLaw
      (fun _ _ h => P h ∧ (mode = .hard → HardLockStarted h)) (fun _ _ => P) j h := by
  refine keeps_classified setting job (looks_stable lasts) ((keeps_acquire ..).mpr ?_)
  refine ⟨⟨fun _ => heeded, nofun, nofun⟩, fun fault => lasts _ _ known, fun lockId => ?_⟩
  have fetched := lasts h ⟨.leader endpoint (.newLockId job.database) ttl, .ok lockId⟩ known
  refine ⟨Call.Free.law ⟨rfl, rfl, rfl⟩ _, fun grant => ⟨lasts _ _ fetched, ?started⟩, ?refused⟩
  case started =>
    rintro rfl
    exact hardLockStarted_of_handshake rfl rfl
  case refused =>
    refine fun fault => ⟨fun _ => lasts _ _ fetched, fun _ => ?_⟩
    exact ⟨Call.Free.law ⟨rfl, rfl, rfl⟩ _, fun answer => lasts _ _ (lasts _ _ fetched)⟩

theorem unlessStopping_heeds (lasts : ∀ h e, P h → P (h ++ [e])) (known : P h) :
    Stage.unlessStopping.Keeps ShutdownLaw (fun _ _ h => Heeded h ∧ P h) (fun _ _ => P) j h := by
  rw [Stage.keeps_unlessStopping]
  exact ⟨Call.Free.law ⟨rfl, rfl, rfl⟩ h, lasts _ _ known, by simp [Heeded], lasts _ _ known⟩

theorem softRound_heeds (budget : Duration) (lasts : ∀ h e, P h → P (h ++ [e])) :
    (softRound setting job endpoint budget).Preserves ShutdownLaw fun _ => P := by
  intro j h known
  have free := (followHeld_uses setting job budget · |>.mono fun _ => Call.FollowsHeld.free)
  simp only [softRound_eq, Stage.keeps_bind]
  refine (unlessStopping_heeds lasts known).mono ?_ fun _ _ _ => id
  rintro _ j h ⟨heeded, known⟩
  refine (acquireLock_heeds setting job endpoint .soft _ lasts heeded known).mono ?_ fun _ _ _ => id
  rintro guard j h ⟨known, _⟩
  exact (free guard).preserves (free_stable lasts) j h known

theorem catchUpSoftly_heeds (lasts : ∀ h e, P h → P (h ++ [e])) :
    (catchUpSoftly setting job endpoint).Preserves ShutdownLaw fun _ => P :=
  catchUpSoftly_leads setting job endpoint (fun _ _ => id)
    (fun _ h _ => Call.Free.law ⟨rfl, rfl, rfl⟩ h)
    fun budget => softRound_heeds setting job endpoint budget lasts

theorem catchUpHard_heeds (syncerId : UInt64) (heeded : Heeded h) (named : Named h) :
    (catchUpHard setting job endpoint syncerId).Keeps ShutdownLaw
      (fun _ _ => HardLockStarted) (fun _ _ _ => True) j h := by
  have lasts (h : History surroundings) (e : Event surroundings) (named : Named h) :=
    named.append [e]
  unfold catchUpHard
  rw [Stage.keeps_bind, Stage.keeps_enter, Stage.keeps_bind]
  refine (acquireLock_heeds setting job endpoint .hard _ lasts heeded named).mono ?_
    fun _ _ _ _ => trivial
  rintro guard j h ⟨named, started⟩
  rw [Stage.keeps_bind, Stage.keeps_modify]
  have stable := free_stable fun h e (known : Named h ∧ HardLockStarted h) =>
    ⟨known.1.append [e], known.2.append [e]⟩
  have registers := (finalizeAndRegister_uses setting job endpoint syncerId guard.lockId).preserves
    registers_stable
  have cancels : guard.releaseQuietly.Uses Call.Free := ⟨⟨rfl, rfl, rfl⟩, fun _ => trivial⟩
  have repairs := stable.mono fun _ (repairs : Call.Repairs _) => repairs.assists.free
  have kept := (Stage.preserves_result registers).bind fun result =>
    (Stage.preserves_act stable cancels).bind fun _ =>
      concludeHardLock_preserves setting job repairs endpoint result
  exact (kept _ h ⟨named, started rfl⟩).mono (fun _ _ _ known => known.2) fun _ _ _ _ => trivial

theorem prepare_heeds :
    (prepare setting job).Keeps ShutdownLaw (fun _ _ => Heeded) (fun _ _ _ => True) j h := by
  have stable := (free_stable (P := fun _ => True) fun _ _ => id).mono
    fun _ (surveys : Call.Surveys job _) => surveys.assists.free
  refine keeps_prepare setting job stable (fun _ _ _ _ => id) (fun _ _ _ => id) ?_ trivial
  intro endpoint j h _
  have free (h : History surroundings) (c : Call) (free : c.Free) := free.law h
  exact ⟨free _ _ ⟨rfl, rfl, rfl⟩, free _ _ ⟨rfl, rfl, rfl⟩, trivial, by simp [Heeded]⟩

theorem copyShard_heeds (heeded : Heeded h) :
    (copyShard setting job endpoint).Keeps ShutdownLaw (fun _ _ => Named) (fun _ _ _ => True)
      j h := by
  have looks := looks_stable (P := fun _ => True) fun _ _ => id
  have free (h : History surroundings) (c : Call) (free : c.Free) := free.law h
  rw [keeps_copyShard]
  refine ⟨⟨nofun, fun _ => .inr heeded, nofun⟩, fun _ => trivial, free _ _ ⟨rfl, rfl, rfl⟩,
    free _ _ ⟨rfl, rfl, rfl⟩, fun fault => ?failed, fun outcome => ⟨fun _ => trivial, fun _ => ?copied⟩⟩
  case failed => exact classify_preserves setting job looks fault _ _ trivial
  case copied =>
    have named : Named (h ++ [⟨.setLeader job.leader, .ok ()⟩]) := named_of_last rfl
    exact (named.append _).append _

theorem work_heeds :
    (work setting job).Keeps ShutdownLaw (fun _ _ => HardLockStarted) (fun _ _ _ => True) j h := by
  have stable := free_stable (P := fun _ => True) fun _ _ => id
  have waits := stable.mono fun _ (waits : Call.Waits job _) => waits.assists.free
  have lasts (h : History surroundings) (e : Event surroundings) (named : Named h) :=
    named.append [e]
  have stoodBy := standBy_preserves setting job waits (looks_stable fun _ _ => id)
    (fun _ _ _ => id) j h trivial
  simp only [work_eq, Stage.keeps_bind]
  refine stoodBy.mono (fun _ j h _ => ?_) fun _ _ _ => id
  refine (prepare_heeds setting job).mono (fun endpoint j h heeded => ?_) fun _ _ _ => id
  refine (copyShard_heeds setting job endpoint heeded).mono (fun syncerId j h named => ?_)
    fun _ _ _ => id
  have followed := catchUpSoftly_heeds setting job endpoint lasts j h named
  refine followed.mono (fun _ j h named => ?_) fun _ _ _ _ => trivial
  refine (unlessStopping_heeds lasts named).mono ?_ fun _ _ _ _ => trivial
  rintro _ j h ⟨heeded, named⟩
  exact catchUpHard_heeds setting job endpoint syncerId heeded named

theorem run_keeps_shutdownLaw :
    (run setting job).Keeps ShutdownLaw
      (fun ended h => ended.isComplete = true → HardLockStarted h) [] := by
  have closes (fault : Option Fault) := (free_stable fun h e
    (licensed : Licensed fault h) => licensed.append [e]).mono
    fun _ (closes : Call.Closes job _) => closes.assists.free
  refine (keeps_run_of_stable setting job (Call.Free.law ⟨rfl, rfl, rfl⟩ _) closes
    fun began => ?_).mono ?_
  · refine (work_heeds setting job).mono (fun _ _ _ started _ => started) ?_
    exact fun _ _ _ _ => nofun
  · rintro _ h ⟨j, fault, ⟨elapsed, rfl⟩, known⟩ complete
    cases fault with
    | none => exact known rfl
    | some fault => simp [Report.isComplete, report] at complete

end

section
variable (setting : Setting) (job : Job) {es : History surroundings} {moment : Nat}

theorem StartsHardLock.before {q : Act Report} {n : Nat} (steps : Steps (run setting job) es q)
    (stops : StopsAt moment es) (starts : StartsHardLock es n) : n < moment := by
  obtain ⟨e, found, fetches⟩ := (Option.any_eq_true _ _).mp starts.1
  obtain ⟨next, before⟩ := steps.nth found
  have heeded := ((run_keeps_shutdownLaw setting job).allowed before).fetches fetches
  have lt := (stops.take n).of_heeded heeded
  obtain ⟨inside, _⟩ := List.getElem?_eq_some_iff.mp found
  rw [List.length_take] at lt
  omega

/-- Once the server is asked to stop, an attempt fetches no more lock ids and does not begin to copy.
If the handshake for the hard lock had not started by then, it neither finalizes nor registers, and
it fails. -/
theorem run_heeds_shutdown (stops : StopsAt moment es) :
    (∀ c next, Steps (run setting job) es (.call c next) → moment ≤ es.length →
      c.fetchesLockId = false ∧
        (c.namesLeader = true → ∃ e ∈ es, Call.namesLeader e.call = true)) ∧
    ((∀ n < moment, ¬StartsHardLock es n) →
      (∀ c next, Steps (run setting job) es (.call c next) → c.settles = false) ∧
      (∀ q, Steps (run setting job) es q → ∀ e ∈ es, Call.settles e.call = false) ∧
      ∀ report, Runs (run setting job) es report → report.isComplete = false) := by
  have kept := run_keeps_shutdownLaw setting job
  constructor
  · intro c next steps asked
    have law : ShutdownLaw es c := kept.allowed steps
    have unheeded : ¬Heeded es := by
      intro heeded
      have := stops.of_heeded heeded
      omega
    constructor
    · cases fetches : c.fetchesLockId with
      | false => rfl
      | true => exact absurd (law.fetches fetches) unheeded
    · exact fun names => (law.names names).resolve_right unheeded
  · intro unstarted
    have never {q : Act Report} (steps : Steps (run setting job) es q) : ¬HardLockStarted es := by
      rintro ⟨n, starts⟩
      exact unstarted n (starts.before setting job steps stops) starts
    refine ⟨?_, ?_, ?_⟩
    · intro c next steps
      have law : ShutdownLaw es c := kept.allowed steps
      cases settles : c.settles with
      | false => rfl
      | true => exact absurd (law.settles settles) (never steps)
    · intro q steps e mem
      obtain ⟨before, after, rfl⟩ := List.append_of_mem mem
      obtain ⟨next, earlier⟩ := steps.before
      have law : ShutdownLaw before e.call := kept.allowed earlier
      cases settles : Call.settles e.call with
      | false => rfl
      | true => exact absurd ((law.settles settles).append _) (never steps)
    · intro report runs
      cases complete : report.isComplete with
      | false => rfl
      | true => exact absurd (kept.ended runs complete) (never runs)

end

def stoppingInRound (h : History surroundings) : (c : Call) → Option c.Reply
  | .stopping => some (h.any fun e => match e.call with
    | .catchUp .. => true
    | _ => false)
  | _ => none

instance (moment : Nat) (h : History surroundings) : Decidable (StopsAt moment h) :=
  inferInstanceAs (Decidable (∀ n < h.length, ∀ stopping, h[n]?.bind looked = some stopping →
    (stopping = true ↔ moment ≤ n) ∧ moment ≠ n + 1))

instance (h : History surroundings) (n : Nat) : Decidable (StartsHardLock h n) :=
  inferInstanceAs (Decidable (_ ∧ _))

theorem stoppedRun_heeds_shutdown :
    let es := (troubledRun stoppingInRound).1
    StopsAt 18 es ∧ (∀ n < 18, ¬StartsHardLock es n) ∧
    (∃ c next, Steps (run calmSetting calmJob) (es.take 18) (.call c next) ∧
      c.fetchesLockId = false) ∧
    (∀ e ∈ es, Call.settles e.call = false) ∧
    ∃ report, Runs (run calmSetting calmJob) es report ∧ report.isComplete = false := by
  intro es
  have stops : StopsAt 18 es := by decide +kernel
  have unstarted : ∀ n < 18, ¬StartsHardLock es n := by decide +kernel
  have ends : (troubledRun stoppingInRound).2.map Report.fault = some (some .shuttingDown) := by
    decide +kernel
  obtain ⟨report, runs, _⟩ := troubledRun_ends stoppingInRound ends
  have next : es[18]?.isSome = true := by decide +kernel
  obtain ⟨e, found⟩ := Option.isSome_iff_exists.mp next
  obtain ⟨next, steps⟩ := Steps.nth runs found
  have law := (run_heeds_shutdown calmSetting calmJob stops).2 unstarted
  have earlier := (run_heeds_shutdown calmSetting calmJob (stops.take 18)).1
  have lasts : 18 ≤ (es.take 18).length := by decide +kernel
  exact ⟨stops, unstarted, ⟨e.call, next, steps, (earlier _ _ steps lasts).1⟩, law.2.1 _ runs,
    report, runs, law.2.2 _ runs⟩

end FollowerSync.Attempt
