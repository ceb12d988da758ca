import FollowerSync.Proofs.Locks

set_option autoImplicit false

namespace FollowerSync.Attempt
open Leader

section
variable (endpoint : String) (request : LockRequest) (limit cancelLimit : Duration)

abbrev numbering : Call := .leader endpoint (.newLockId request.database) limit

abbrev acquiring (lockId : UInt64) : Call :=
  .leader endpoint (.acquireLock { request with lockId }) limit

def guardFor (lockId : UInt64) (grant : LockGrant) : Guard where
  endpoint
  database := request.database
  clientId := request.clientId
  lockId
  grant
  cancelTimeout := cancelLimit
  armed := true

/-- The calls of a handshake, and what it yields. A lock that may have been granted to a request
that failed is cancelled, and no answer to that makes a difference. -/
inductive HandshakeCourse : History surroundings → Except Fault Guard → Prop
  | unnumbered (fault : Fault) :
      HandshakeCourse [⟨numbering endpoint request limit, .error fault⟩] (.error fault)
  | granted (lockId : UInt64) (grant : LockGrant) :
      HandshakeCourse [⟨numbering endpoint request limit, .ok lockId⟩,
        ⟨acquiring endpoint request limit lockId, .ok grant⟩]
        (.ok (guardFor endpoint request cancelLimit lockId grant))
  | unreached (lockId : UInt64) {fault : Fault} (unreached : fault.code = .couldNotConnect) :
      HandshakeCourse [⟨numbering endpoint request limit, .ok lockId⟩,
        ⟨acquiring endpoint request limit lockId, .error fault⟩] (.error fault)
  | refused (lockId : UInt64) {fault : Fault} (reached : fault.code ≠ .couldNotConnect)
      (answer : Except Fault Unit) :
      HandshakeCourse [⟨numbering endpoint request limit, .ok lockId⟩,
        ⟨acquiring endpoint request limit lockId, .error fault⟩,
        ⟨.leader endpoint (.cancelLock request.database lockId request.clientId) cancelLimit,
          answer⟩] (.error fault)

variable {endpoint request limit cancelLimit} {es : History surroundings} {r : Except Fault Guard}

theorem HandshakeCourse.runs (course : HandshakeCourse endpoint request limit cancelLimit es r) :
    Runs (Guard.acquire endpoint request limit cancelLimit) es r := by
  cases course with
  | unnumbered fault => exact .call (.refl _)
  | granted lockId grant => exact .call (.call (.refl _))
  | unreached lockId unreached =>
    rename_i fault
    refine .call (.call ?_)
    have connects : fault.isConnectFailure = true := decide_eq_true unreached
    simp only [Program.bind_done, connects, if_true]
    exact .refl _
  | refused lockId reached answer =>
    rename_i fault
    refine .call (.call ?_)
    have connects : ¬fault.isConnectFailure = true := fun code => reached (of_decide_eq_true code)
    simp only [Program.bind_done, if_neg connects]
    exact .call (.refl _)

theorem handshakeCourse_of_runs
    (runs : Runs (Guard.acquire endpoint request limit cancelLimit) es r) :
    HandshakeCourse endpoint request limit cancelLimit es r := by
  have k : (Guard.acquire endpoint request limit cancelLimit).Keeps (fun _ _ => True)
      (fun r h => HandshakeCourse endpoint request limit cancelLimit h r) [] := by
    rw [keeps_acquire]
    refine ⟨trivial, .unnumbered, fun lockId => ⟨trivial, .granted lockId, fun fault => ?_⟩⟩
    refine ⟨fun connects => .unreached lockId (of_decide_eq_true connects), fun reached => ?_⟩
    exact ⟨trivial, .refused lockId fun code => reached (decide_eq_true code)⟩
  exact k.ended runs

theorem runs_acquire_iff : Runs (Guard.acquire endpoint request limit cancelLimit) es r ↔
    HandshakeCourse endpoint request limit cancelLimit es r :=
  ⟨handshakeCourse_of_runs, HandshakeCourse.runs⟩

end

/-- What a release reports, by the answer to the cancellation. -/
inductive Reported : Except Fault Unit → Except Fault Unit → Prop
  | cancelled : Reported (.ok ()) (.ok ())
  | vanished {fault : Fault} (vanished : fault.code = .databaseNotFound) :
      Reported (.error fault) (.ok ())
  | failed {fault : Fault} (failed : fault.code ≠ .databaseNotFound) :
      Reported (.error fault) (.error (.lockRelease fault.message))

theorem reported_iff {answer r : Except Fault Unit} :
    Reported answer r ↔ r = Guard.released answer := by
  constructor
  · intro reported
    cases reported with
    | cancelled => rfl
    | vanished vanished => exact (if_pos vanished).symm
    | failed failed => exact (if_neg failed).symm
  · rintro rfl
    rcases answer with fault | _
    · by_cases vanished : fault.code = .databaseNotFound
      · rw [Guard.released, if_pos vanished]
        exact .vanished vanished
      · rw [Guard.released, if_neg vanished]
        exact .failed vanished
    · exact .cancelled

/-- The ways in which a guard ends where programs can go on in the background. -/
inductive Ending where
  | release
  | releaseQuietly
  | drop

namespace Guard
variable {g : Guard} {es : History surroundings}

/-- The guard's lock is cancelled once, and this is all. -/
def CancelledOnce (g : Guard) (es : History surroundings) : Prop :=
  ∃ answer, es = [⟨g.cancelling, answer⟩]

theorem runs_cancel_iff {r : Except Fault Unit} :
    Runs g.cancel es r ↔ ∃ answer, es = [⟨g.cancelling, answer⟩] ∧ Reported answer r := by
  simp only [cancel, ask_eq, Program.bind_eq, Program.bind_call, Program.bind_done,
    Program.pure_eq, Runs.call_iff, Runs.done_iff, reported_iff]
  constructor
  · rintro ⟨answer, _, rfl, rfl, rfl⟩
    exact ⟨answer, rfl, rfl⟩
  · rintro ⟨answer, rfl, rfl⟩
    exact ⟨answer, [], rfl, rfl, rfl⟩

theorem runs_quietly_iff {p : Act (Except Fault Unit)} (cancels : ∀ es r,
    Runs p es r ↔ ∃ answer, es = [⟨g.cancelling, answer⟩] ∧ Reported answer r) :
    Runs (p.bind fun _ => .done ()) es () ↔ g.CancelledOnce es := by
  rw [Runs.bind_iff]
  constructor
  · rintro ⟨es, rest, r, rfl, runs, ends⟩
    obtain ⟨rfl, -⟩ := Runs.done_iff.mp ends
    obtain ⟨answer, rfl, -⟩ := (cancels _ _).mp runs
    exact ⟨answer, List.append_nil _⟩
  · rintro ⟨answer, rfl⟩
    refine ⟨_, [], released answer, (List.append_nil _).symm, ?_, .refl _⟩
    exact (cancels _ _).mpr ⟨answer, rfl, reported_iff.mpr rfl⟩

theorem runs_drop_armed_iff (armed : g.armed = true) :
    Runs (g.drop true) es () ↔ g.CancelledOnce es := by
  have cancels : g.drop true = g.cancel.bind fun _ => .done () := by
    rw [drop, armed]
    rfl
  rw [cancels]
  exact runs_quietly_iff fun _ _ => runs_cancel_iff

theorem runs_drop_idle_iff {inRuntime : Bool} (idle : (g.armed && inRuntime) = false) :
    Runs (g.drop inRuntime) es () ↔ es = [] := by
  rw [drop, idle]
  exact Runs.done_iff.trans (and_iff_left rfl)

theorem runs_release_iff {r : Except Fault Unit} :
    Runs g.release es r ↔ ∃ answer, es = [⟨g.cancelling, answer⟩] ∧ Reported answer r := by
  have disarmed : g.release = { g with armed := false }.cancel.bind fun result =>
      ({ g with armed := false }.drop true).bind fun _ => .done result := rfl
  rw [disarmed, Runs.bind_iff]
  constructor
  · rintro ⟨es, rest, r', rfl, runs, ends⟩
    obtain ⟨dropped, last, _, rfl, drops, ends⟩ := Runs.bind_iff.mp ends
    obtain ⟨rfl, rfl⟩ := Runs.done_iff.mp ends
    obtain rfl := (runs_drop_idle_iff rfl).mp drops
    obtain ⟨answer, rfl, reported⟩ := runs_cancel_iff.mp runs
    exact ⟨answer, rfl, reported⟩
  · rintro ⟨answer, rfl, reported⟩
    exact ⟨_, [], r, rfl, runs_cancel_iff.mpr ⟨answer, rfl, reported⟩, .refl _⟩

theorem runs_releaseQuietly_iff : Runs g.releaseQuietly es () ↔ g.CancelledOnce es := by
  have quietly : g.releaseQuietly = g.release.bind fun _ => .done () := rfl
  rw [quietly]
  exact runs_quietly_iff fun _ _ => runs_release_iff

def endBy (g : Guard) : Ending → Act Unit
  | .release => g.release.bind fun _ => .done ()
  | .releaseQuietly => g.releaseQuietly
  | .drop => g.drop true

theorem runs_endBy_iff {ending : Ending} (armed : g.armed = true) :
    Runs (g.endBy ending) es () ↔ g.CancelledOnce es := by
  cases ending with
  | release => exact runs_releaseQuietly_iff
  | releaseQuietly => exact runs_releaseQuietly_iff
  | drop => exact runs_drop_armed_iff armed

end Guard

/-!
## Many guards
-/

/-- From the first guards to the last ones in custody, these calls were made: handshakes are
granted or fail, and guards are ended, in any order. -/
inductive Custody : List Guard → History surroundings → List Guard → Prop
  | rest (guards : List Guard) : Custody guards [] guards
  | granted {endpoint : String} {request : LockRequest} {limit cancelLimit : Duration} {g : Guard}
      {guards last : List Guard} {es later : History surroundings}
      (runs : Runs (Guard.acquire endpoint request limit cancelLimit) es (.ok g))
      (goesOn : Custody (g :: guards) later last) : Custody guards (es ++ later) last
  | failed {endpoint : String} {request : LockRequest} {limit cancelLimit : Duration}
      {fault : Fault} {guards last : List Guard} {es later : History surroundings}
      (runs : Runs (Guard.acquire endpoint request limit cancelLimit) es (.error fault))
      (goesOn : Custody guards later last) : Custody guards (es ++ later) last
  | ended {g : Guard} {ending : Ending} {guards last : List Guard} {es later : History surroundings}
      (held : g ∈ guards) (runs : Runs (g.endBy ending) es ())
      (goesOn : Custody (guards.erase g) later last) : Custody guards (es ++ later) last

def grantedLocks (h : History surroundings) : List LockName := h.filterMap mayGrant

def cancelledLocks (h : History surroundings) : List LockName :=
  h.filterMap fun e => Call.cancels e.call

section
variable {es : History surroundings} {g : Guard}

theorem grantedLocks_append (es later : History surroundings) :
    grantedLocks (es ++ later) = grantedLocks es ++ grantedLocks later := List.filterMap_append

theorem cancelledLocks_append (es later : History surroundings) :
    cancelledLocks (es ++ later) = cancelledLocks es ++ cancelledLocks later :=
  List.filterMap_append

theorem locks_of_granted {endpoint : String} {request : LockRequest} {limit cancelLimit : Duration}
    (runs : Runs (Guard.acquire endpoint request limit cancelLimit) es (.ok g)) :
    g.armed = true ∧ grantedLocks es = [g.name] ∧ cancelledLocks es = [] := by
  cases runs_acquire_iff.mp runs with
  | granted lockId grant => exact ⟨rfl, rfl, rfl⟩

theorem locks_of_failed {endpoint : String} {request : LockRequest} {limit cancelLimit : Duration}
    {fault : Fault}
    (runs : Runs (Guard.acquire endpoint request limit cancelLimit) es (.error fault)) :
    grantedLocks es = cancelledLocks es := by
  cases runs_acquire_iff.mp runs with
  | unnumbered => rfl
  | unreached lockId unreached =>
    have granted : mayGrant ⟨acquiring endpoint request limit lockId, .error fault⟩ = none :=
      if_pos (decide_eq_true unreached)
    rw [grantedLocks, List.filterMap_cons_none rfl, List.filterMap_cons_none granted]
    rfl
  | refused lockId reached =>
    have granted : mayGrant ⟨acquiring endpoint request limit lockId, .error fault⟩ =
        some ⟨endpoint, request.database, lockId, request.clientId⟩ :=
      if_neg fun code => reached (of_decide_eq_true code)
    rw [grantedLocks, List.filterMap_cons_none rfl, List.filterMap_cons_some granted]
    rfl

theorem locks_of_cancelledOnce (once : g.CancelledOnce es) :
    grantedLocks es = [] ∧ cancelledLocks es = [g.name] := by
  obtain ⟨answer, rfl⟩ := once
  exact ⟨rfl, rfl⟩

end

/-- Every lock that may have been granted was cancelled or is still in custody, and as often. -/
theorem Custody.settled {guards last : List Guard} {es : History surroundings}
    (custody : Custody guards es last) (armed : ∀ g ∈ guards, g.armed = true) :
    (∀ g ∈ last, g.armed = true) ∧ ∀ lock,
      (guards.map Guard.name).count lock + (grantedLocks es).count lock =
        (cancelledLocks es).count lock + (last.map Guard.name).count lock := by
  induction custody with
  | rest guards => exact ⟨armed, fun lock => by simp [grantedLocks, cancelledLocks]⟩
  | granted runs goesOn ih =>
    obtain ⟨handed, granted, cancelled⟩ := locks_of_granted runs
    obtain ⟨still, counts⟩ := ih (List.forall_mem_cons.mpr ⟨handed, armed⟩)
    refine ⟨still, fun lock => ?_⟩
    have counts := counts lock
    simp only [grantedLocks_append, cancelledLocks_append, granted, cancelled, List.count_append,
      List.map_cons, List.count_cons, List.count_nil] at counts ⊢
    omega
  | failed runs goesOn ih =>
    obtain ⟨still, counts⟩ := ih armed
    refine ⟨still, fun lock => ?_⟩
    have counts := counts lock
    simp only [grantedLocks_append, cancelledLocks_append, locks_of_failed runs, List.count_append]
    omega
  | @ended g ending guards last es later held runs goesOn ih =>
    have once := (Guard.runs_endBy_iff (armed g held)).mp runs
    obtain ⟨granted, cancelled⟩ := locks_of_cancelledOnce once
    obtain ⟨still, counts⟩ := ih fun g' mem => armed g' (List.mem_of_mem_erase mem)
    refine ⟨still, fun lock => ?_⟩
    have counts := counts lock
    have split := ((List.perm_cons_erase held).map Guard.name).count_eq lock
    simp only [grantedLocks_append, cancelledLocks_append, granted, cancelled, List.count_append,
      List.map_cons, List.count_cons, List.count_nil] at split ⊢
    omega

/-- What a handshake may call and yield, that each way to end an armed guard cancels its lock once,
what a release reports, that nothing comes of a guard that is disarmed, and what this comes to for
many guards. -/
theorem guards_cancel_once :
    (∀ endpoint request limit cancelLimit es r,
      Runs (Guard.acquire endpoint request limit cancelLimit) es r ↔
        HandshakeCourse endpoint request limit cancelLimit es r) ∧
    (∀ (g : Guard) es r, Runs g.release es r ↔
      ∃ answer, es = [⟨g.cancelling, answer⟩] ∧ Reported answer r) ∧
    (∀ (g : Guard) ending es, g.armed = true →
      (Runs (g.endBy ending) es () ↔ g.CancelledOnce es)) ∧
    (∀ (g : Guard) inRuntime es, (g.armed && inRuntime) = false →
      (Runs (g.drop inRuntime) es () ↔ es = [])) ∧
    ∀ es last, Custody [] es last → (∀ g ∈ last, g.armed = true) ∧ ∀ lock,
      (grantedLocks es).count lock =
        (cancelledLocks es).count lock + (last.map Guard.name).count lock := by
  refine ⟨fun _ _ _ _ _ _ => runs_acquire_iff, fun _ _ _ => Guard.runs_release_iff,
    fun _ _ _ => Guard.runs_endBy_iff, fun _ _ _ => Guard.runs_drop_idle_iff, ?_⟩
  intro es last custody
  obtain ⟨armed, counts⟩ := custody.settled (List.forall_mem_nil _)
  exact ⟨armed, fun lock => by simpa using counts lock⟩

theorem calmGuard_cancels_once :
    let request := lockRequest calmSetting calmJob .hard (.ofSecs 10)
    let grant : LockGrant := ⟨some 3, some 50⟩
    let g := guardFor "tcp://L" request (.ofSecs 5) 7 grant
    let granted : History surroundings :=
      [⟨numbering "tcp://L" request (.ofSecs 10), .ok (7 : UInt64)⟩,
        ⟨acquiring "tcp://L" request (.ofSecs 10) 7, .ok grant⟩]
    let cancelled : History surroundings := [⟨g.cancelling, .error (.rpc .databaseNotFound "gone")⟩]
    Runs (Guard.acquire "tcp://L" request (.ofSecs 10) (.ofSecs 5)) granted (.ok g) ∧
      Runs g.release cancelled (.ok ()) ∧ g.armed = true ∧ Runs (g.endBy .drop) cancelled () ∧
      Runs ({ g with armed := false }.drop true) [] () ∧
      Custody [] (granted ++ cancelled) [] ∧ ∀ lock,
        (grantedLocks (granted ++ cancelled)).count lock =
          (cancelledLocks (granted ++ cancelled)).count lock := by
  intro request grant g granted cancelled
  obtain ⟨acquires, releases, ends, idles, settles⟩ := guards_cancel_once
  have handed : Runs (Guard.acquire "tcp://L" request (.ofSecs 10) (.ofSecs 5)) granted (.ok g) :=
    (acquires ..).mpr (.granted 7 grant)
  have dropped : Runs (g.endBy .drop) cancelled () := (ends g .drop _ rfl).mpr ⟨_, rfl⟩
  have custody : Custody [] (granted ++ cancelled) [] := by
    have ended : Custody [g] (cancelled ++ []) [] :=
      .ended List.mem_cons_self dropped (by rw [List.erase_cons_head]; exact .rest [])
    rw [List.append_nil] at ended
    exact .granted handed ended
  refine ⟨handed, (releases ..).mpr ⟨_, rfl, .vanished rfl⟩, rfl, dropped,
    (idles _ _ _ rfl).mpr rfl, custody, fun lock => ?_⟩
  simpa using (settles _ _ custody).2 lock

end FollowerSync.Attempt
