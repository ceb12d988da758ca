import FollowerSync.Proofs.Footprints

/-!
# Every lock is released, and released once

A lock is held on the leader from the moment the leader may have granted it until its cancellation
is sent. An attempt holds at most one lock at a time, cancels each before it starts on another or
ends, and cancels nothing else.
-/

set_option autoImplicit false

namespace FollowerSync.Attempt
open Leader

structure LockName where
  endpoint : String
  database : String
  lockId : UInt64
  clientId : String
  deriving DecidableEq

def Call.acquires : Call → Option LockName
  | .leader endpoint (.acquireLock r) _ => some ⟨endpoint, r.database, r.lockId, r.clientId⟩
  | _ => none

def Call.cancels : Call → Option LockName
  | .leader endpoint (.cancelLock database lockId clientId) _ =>
    some ⟨endpoint, database, lockId, clientId⟩
  | _ => none

def Call.isHandshake : Call → Bool
  | .leader _ (.newLockId _) _ | .leader _ (.acquireLock _) _ => true
  | _ => false

/-- The lock that the leader may have granted by this answer: none if it was never reached. -/
def mayGrant : Event surroundings → Option LockName
  | ⟨.leader endpoint (.acquireLock r) _, .ok _⟩ =>
    some ⟨endpoint, r.database, r.lockId, r.clientId⟩
  | ⟨.leader endpoint (.acquireLock r) _, .error fault⟩ =>
    if fault.isConnectFailure then none else some ⟨endpoint, r.database, r.lockId, r.clientId⟩
  | _ => none

/-- The locks that are held after an event, given those that are held before. -/
def holding (held : List LockName) (e : Event surroundings) : List LockName :=
  match mayGrant e, Call.cancels e.call with
  | some lock, _ => lock :: held
  | none, some lock => held.erase lock
  | none, none => held

def heldLocks (h : History surroundings) : List LockName := h.foldl holding []

def cancelledNext (h : History surroundings) : List LockName :=
  (h.takeWhile fun e => !Call.isHandshake e.call).filterMap fun e => Call.cancels e.call

structure LocksPaired (h : History surroundings) : Prop where
  /-- What the leader may have granted is cancelled once before the next handshake and before the
  end; where the leader was never reached, nothing is cancelled. -/
  cancelled : ∀ before e after, h = before ++ e :: after → (Call.acquires e.call).isSome →
    cancelledNext after = (mayGrant e).toList
  /-- What is cancelled is the last lock asked for, and for the first time. -/
  earned : ∀ before e after lock, h = before ++ e :: after → Call.cancels e.call = some lock →
    ∃ older asked between, before = older ++ asked :: between ∧ mayGrant asked = some lock ∧
      ∀ e ∈ between, Call.isHandshake e.call = false ∧ Call.cancels e.call = none

/-- What may be called while locks are held: the next lock only when none is, and a cancellation
only of the one that is. -/
def Expected (held : List LockName) (c : Call) : Prop :=
  (c.isHandshake → held = []) ∧ ∀ lock, c.cancels = some lock → held = [lock]

/-- The calls of a history are expected, and nothing is held at its end. -/
def Orderly : List LockName → History surroundings → Prop
  | held, [] => held = []
  | held, e :: h => Expected held e.call ∧ Orderly (holding held e) h

theorem isHandshake_of_mayGrant {e : Event surroundings} {lock : LockName}
    (h : mayGrant e = some lock) : Call.isHandshake e.call = true := by
  unfold mayGrant at h
  split at h <;> simp_all [Call.isHandshake]

theorem not_isHandshake_of_cancels {c : Call} {lock : LockName} (h : c.cancels = some lock) :
    c.isHandshake = false := by
  unfold Call.cancels at h
  split at h <;> simp_all [Call.isHandshake]

theorem isHandshake_of_acquires {c : Call} (h : c.acquires.isSome) : c.isHandshake = true := by
  unfold Call.acquires at h
  split at h
  · rfl
  · cases h

theorem mayGrant_eq_none {e : Event surroundings} (h : Call.isHandshake e.call = false) :
    mayGrant e = none := by
  cases granted : mayGrant e with
  | none => rfl
  | some lock => simp [isHandshake_of_mayGrant granted] at h

theorem holding_cancel {e : Event surroundings} {lock : LockName}
    (h : Call.cancels e.call = some lock) (held : List LockName) :
    holding held e = held.erase lock := by
  unfold holding
  rw [mayGrant_eq_none (not_isHandshake_of_cancels h), h]

theorem holding_grant {e : Event surroundings} {lock : LockName} (h : mayGrant e = some lock)
    (held : List LockName) : holding held e = lock :: held := by
  unfold holding
  rw [h]

theorem holding_other {e : Event surroundings} (granted : mayGrant e = none)
    (h : Call.cancels e.call = none) (held : List LockName) : holding held e = held := by
  unfold holding
  rw [granted, h]

theorem holding_nil {e : Event surroundings} (h : Call.isHandshake e.call = true) :
    holding [] e = (mayGrant e).toList := by
  cases granted : mayGrant e with
  | some lock => exact holding_grant granted []
  | none =>
    refine holding_other granted ?_ []
    cases cancelled : Call.cancels e.call with
    | none => rfl
    | some lock => simp [not_isHandshake_of_cancels cancelled] at h

theorem holding_length_le {held : List LockName} {e : Event surroundings}
    (expected : Expected held e.call) (single : held.length ≤ 1) :
    (holding held e).length ≤ 1 := by
  cases granted : mayGrant e with
  | some lock =>
    rw [holding_grant granted, expected.1 (isHandshake_of_mayGrant granted)]
    exact Nat.le_refl 1
  | none =>
    cases cancelled : Call.cancels e.call with
    | some lock =>
      rw [holding_cancel cancelled]
      exact Nat.le_trans List.length_erase_le single
    | none =>
      rw [holding_other granted cancelled]
      exact single

theorem Orderly.drop {held : List LockName} {before after : History surroundings}
    (h : Orderly held (before ++ after)) : Orderly (before.foldl holding held) after := by
  induction before generalizing held with
  | nil => exact h
  | cons e before ih => exact ih h.2

theorem Orderly.cancelledNext_eq {held : List LockName} {h : History surroundings}
    (orderly : Orderly held h) : cancelledNext h = held := by
  unfold cancelledNext
  induction h generalizing held with
  | nil => exact orderly.symm
  | cons e h ih =>
    obtain ⟨expected, rest⟩ := orderly
    cases handshake : Call.isHandshake e.call with
    | true => simp [handshake, expected.1 handshake]
    | false =>
      have granted := mayGrant_eq_none handshake
      have later := ih rest
      cases cancelled : Call.cancels e.call with
      | some lock =>
        have held_eq := expected.2 lock cancelled
        rw [holding_cancel cancelled, held_eq, List.erase_cons_head] at later
        simp [handshake, cancelled, later, held_eq]
      | none =>
        rw [holding_other granted cancelled] at later
        simpa [handshake, cancelled] using later

theorem Orderly.held_since {held : List LockName} {before after : History surroundings}
    {lock : LockName} (orderly : Orderly held (before ++ after))
    (last : before.foldl holding held = [lock]) :
    (held = [lock] ∧
      ∀ e ∈ before, Call.isHandshake e.call = false ∧ Call.cancels e.call = none) ∨
    ∃ older asked between, before = older ++ asked :: between ∧ mayGrant asked = some lock ∧
      ∀ e ∈ between, Call.isHandshake e.call = false ∧ Call.cancels e.call = none := by
  -- From the front: the hypothesis speaks of what is held after the first event, so the grant is
  -- either later, or this event, or older than all of `before`.
  induction before generalizing held with
  | nil => exact .inl ⟨last, by simp⟩
  | cons e before ih =>
    obtain ⟨expected, rest⟩ := orderly
    obtain ⟨now, quiet⟩ | ⟨older, asked, between, rfl, granted, quiet⟩ := ih rest last
    · cases granted : mayGrant e with
      | some granted_lock =>
        rw [holding_grant granted] at now
        obtain rfl : granted_lock = lock := (List.cons.inj now).1
        exact .inr ⟨[], e, before, rfl, granted, quiet⟩
      | none =>
        cases cancelled : Call.cancels e.call with
        | some cancelled_lock =>
          rw [holding_cancel cancelled, expected.2 _ cancelled, List.erase_cons_head] at now
          cases now
        | none =>
          rw [holding_other granted cancelled] at now
          refine .inl ⟨now, ?_⟩
          intro e' member
          obtain rfl | member := List.mem_cons.mp member
          · refine ⟨?_, cancelled⟩
            cases handshake : Call.isHandshake e'.call with
            | false => rfl
            | true => simp [expected.1 handshake] at now
          · exact quiet e' member
    · exact .inr ⟨e :: older, asked, between, rfl, granted, quiet⟩

theorem Orderly.paired {h : History surroundings} (orderly : Orderly [] h) : LocksPaired h := by
  constructor
  · rintro before e after rfl asks
    obtain ⟨expected, rest⟩ := orderly.drop
    have handshake := isHandshake_of_acquires asks
    rw [rest.cancelledNext_eq, expected.1 handshake, holding_nil handshake]
  · rintro before e after lock rfl cancelled
    obtain ⟨expected, -⟩ := orderly.drop
    obtain ⟨nothing, -⟩ | found := orderly.held_since (expected.2 lock cancelled)
    · cases nothing
    · exact found

def Call.LockFree (c : Call) : Prop := c.isHandshake = false ∧ c.cancels = none

def LockLaw (h : History surroundings) (c : Call) : Prop := Expected (heldLocks h) c

theorem heldLocks_append (h later : History surroundings) :
    heldLocks (h ++ later) = later.foldl holding (heldLocks h) := List.foldl_append

theorem Call.Prepares.lockFree {c : Call} {job : Job} (h : c.Prepares job) : c.LockFree := by
  unfold Call.LockFree
  cases c with
  | leader endpoint request limit => cases request <;> first | exact ⟨rfl, rfl⟩ | cases h
  | _ => exact ⟨rfl, rfl⟩

theorem Call.Copies.lockFree {c : Call} (h : c.Copies) : c.LockFree := by
  cases c with
  | leader endpoint request limit => cases h
  | _ => exact ⟨rfl, rfl⟩

theorem Call.Assists.lockFree {c : Call} (assists : c.Assists) : c.LockFree := by
  cases c with
  | leader endpoint request limit => cases request <;> first | exact ⟨rfl, rfl⟩ | cases assists
  | _ => exact ⟨rfl, rfl⟩

theorem lockFree_of_looks (c : Call) (looks : c.Looks) : c.LockFree := looks.assists.lockFree

theorem lockFree_of_registers (c : Call) (h : c.Registers) : c.LockFree := by
  cases c with
  | leader endpoint request limit => cases request <;> first | exact ⟨rfl, rfl⟩ | cases h
  | _ => exact ⟨rfl, rfl⟩

theorem expected_of_lockFree {held : List LockName} {c : Call} (h : c.LockFree) :
    Expected held c := by
  simp [Expected, h.1, h.2]

theorem heldLocks_lockFree {h : History surroundings} {c : Call} {r : c.Reply}
    {held : List LockName} (start : heldLocks h = held) (free : c.LockFree) :
    heldLocks (h ++ [(⟨c, r⟩ : Event surroundings)]) = held := by
  rw [heldLocks_append, start]
  exact holding_other (mayGrant_eq_none free.1) free.2 held

theorem lockFree_stable (held : List LockName) :
    Stage.Stable LockLaw Call.LockFree fun _ h => heldLocks h = held where
  allowed := fun _ _ _ _ free => expected_of_lockFree free
  kept := fun _ _ _ _ start free => heldLocks_lockFree start free

section
variable {h : History surroundings} {e : Event surroundings} {c : Call} {lock : LockName}

theorem lockLaw_handshake (free : heldLocks h = []) (handshake : c.isHandshake = true) :
    LockLaw h c := by
  refine ⟨fun _ => free, fun lock cancelled => ?_⟩
  simp [not_isHandshake_of_cancels cancelled] at handshake

theorem heldLocks_handshake (free : heldLocks h = [])
    (handshake : Call.isHandshake e.call = true) :
    heldLocks (h ++ [e]) = (mayGrant e).toList := by
  rw [heldLocks_append, free]
  exact holding_nil handshake

theorem lockLaw_cancel (one : heldLocks h = [lock]) (cancels : c.cancels = some lock) :
    LockLaw h c := by
  refine ⟨fun handshake => ?_, fun lock' cancels' => ?_⟩
  · simp [not_isHandshake_of_cancels cancels] at handshake
  · obtain rfl : lock = lock' := Option.some.inj (cancels.symm.trans cancels')
    exact one

theorem heldLocks_cancel (one : heldLocks h = [lock]) (cancels : Call.cancels e.call = some lock) :
    heldLocks (h ++ [e]) = [] := by
  rw [heldLocks_append, one]
  exact (holding_cancel cancels [lock]).trans (List.erase_cons_head lock [])

end

def Guard.name (g : Guard) : LockName := ⟨g.endpoint, g.database, g.lockId, g.clientId⟩

def leftBy : Except Fault Guard → List LockName
  | .ok guard => [guard.name]
  | .error _ => []

theorem acquire_keeps {h : History surroundings} (endpoint : String) (request : LockRequest)
    (limit cancelTimeout : Duration) (free : heldLocks h = []) :
    (Guard.acquire endpoint request limit cancelTimeout).Keeps LockLaw
      (fun r h => heldLocks h = leftBy r) h := by
  have fetched (answer : Except Fault UInt64) := heldLocks_handshake free
    (e := ⟨.leader endpoint (.newLockId request.database) limit, answer⟩) rfl
  rw [keeps_acquire]
  refine ⟨lockLaw_handshake free rfl, fun fault => fetched (.error fault), fun lockId => ?_⟩
  refine ⟨lockLaw_handshake (fetched _) rfl, fun grant => ?granted, fun fault => ?refused⟩
  case granted => exact heldLocks_handshake (fetched _) rfl
  case refused =>
    have refused := heldLocks_handshake (fetched (.ok lockId)) (e := ⟨.leader endpoint
      (.acquireLock { request with lockId }) limit, .error fault⟩) rfl
    -- A request that may have reached the leader leaves a lock behind until it is cancelled.
    refine ⟨fun unreached => ?_, fun reached => ?_⟩
    · simp only [mayGrant, unreached] at refused
      exact refused
    · simp only [mayGrant, reached] at refused
      exact ⟨lockLaw_cancel refused rfl, fun answer => heldLocks_cancel refused rfl⟩

theorem release_keeps {h : History surroundings} (guard : Guard)
    (one : heldLocks h = [guard.name]) :
    guard.release.Keeps LockLaw (fun _ h => heldLocks h = []) h :=
  ⟨lockLaw_cancel one rfl, fun _ => heldLocks_cancel one rfl⟩

theorem releaseQuietly_keeps {h : History surroundings} (guard : Guard)
    (one : heldLocks h = [guard.name]) :
    guard.releaseQuietly.Keeps LockLaw (fun _ h => heldLocks h = []) h :=
  (Program.keeps_bind _).mpr (release_keeps guard one)

/-- Begun without a lock, the stage obeys the law and ends without a lock, however it ends. -/
def Balanced {α : Type} (s : Stage α) : Prop :=
  s.Preserves LockLaw fun _ h => heldLocks h = []

section
variable {α β : Type} {s : Stage α}

theorem balanced_of_uses (u : s.Uses Call.LockFree) : Balanced s :=
  u.preserves (lockFree_stable [])

theorem Balanced.bind {f : α → Stage β} (first : Balanced s) (rest : ∀ a, Balanced (f a)) :
    Balanced (s >>= f) :=
  Stage.Preserves.bind first rest

end

section
variable (setting : Setting) (job : Job) (endpoint : String)

theorem unlessStopping_balanced : Balanced Stage.unlessStopping := by
  refine balanced_of_uses (.bind (Stage.uses_act ⟨⟨rfl, rfl⟩, fun _ => trivial⟩) fun stopping => ?_)
  cases stopping <;> simp

theorem acquireLock_keeps (mode : LockMode) (ttl : Duration) {j : Journal}
    {h : History surroundings} (free : heldLocks h = []) :
    (acquireLock setting job endpoint mode ttl).Keeps LockLaw
      (fun guard _ h => heldLocks h = [guard.name]) (fun _ _ h => heldLocks h = []) j h := by
  refine keeps_classified setting job ((lockFree_stable []).mono lockFree_of_looks) ?_
  refine (acquire_keeps endpoint _ _ _ free).mono ?_
  rintro (fault | guard) h left <;> exact left

theorem softRound_balanced (budget : Duration) :
    Balanced (softRound setting job endpoint budget) := by
  refine unlessStopping_balanced.bind fun _ j h free => ?_
  rw [Stage.keeps_bind]
  refine (acquireLock_keeps setting job endpoint .soft _ free).mono ?_ fun _ _ _ => id
  intro guard j h one
  simp only [Stage.keeps_bind, Stage.keeps_get, Stage.keeps_act, ask_eq, Program.keeps_call,
    Program.keeps_done]
  refine ⟨expected_of_lockFree ⟨rfl, rfl⟩, ?_⟩
  rintro (fault | outcome)
  · have still := heldLocks_lockFree (r := .error fault) one
      (c := .catchUp job.shard j.progress.lastLogTick budget j.context) ⟨rfl, rfl⟩
    simp only [Stage.keeps_bind, Stage.keeps_act, Stage.keeps_throw]
    refine (releaseQuietly_keeps guard still).mono fun _ h free => ?_
    have quiet := (classify_uses setting job fault).mono lockFree_of_looks
    exact balanced_of_uses quiet j h free
  · have still := heldLocks_lockFree (r := .ok outcome) one
      (c := .catchUp job.shard j.progress.lastLogTick budget j.context) ⟨rfl, rfl⟩
    simp only [Stage.keeps_bind, Stage.keeps_attempt, Stage.keeps_modify, Stage.keeps_pure]
    refine (release_keeps guard still).mono ?_
    rintro (fault | _) h free <;> exact free

theorem catchUpSoftly_balanced : Balanced (catchUpSoftly setting job endpoint) :=
  catchUpSoftly_leads setting job endpoint (fun _ _ => id)
    (fun _ _ _ => expected_of_lockFree ⟨rfl, rfl⟩) (softRound_balanced setting job endpoint)

theorem catchUpHard_balanced (syncerId : UInt64) :
    Balanced (catchUpHard setting job endpoint syncerId) := by
  refine (balanced_of_uses (Stage.uses_enter _)).bind fun _ j h free => ?_
  rw [Stage.keeps_bind]
  refine (acquireLock_keeps setting job endpoint .hard _ free).mono ?_ fun _ _ _ => id
  intro guard j h one
  simp only [Stage.keeps_bind, Stage.keeps_modify, Stage.keeps_result, Stage.keeps_act]
  have registers := (finalizeAndRegister_uses setting job endpoint syncerId guard.lockId).mono
    lockFree_of_registers
  have inside := registers.preserves (lockFree_stable [guard.name]) { j with
    term := guard.grant.term
    progress := { j.progress with upperBound := guard.grant.lastLogTick } } h one
  have conclude (result : Except Fault Unit) (j : Journal) (h : History surroundings)
      (one : heldLocks h = [guard.name]) :
      guard.releaseQuietly.Keeps LockLaw (fun _ h =>
        (concludeHardLock setting job endpoint result).Keeps LockLaw
          (fun _ _ h => heldLocks h = []) (fun _ _ h => heldLocks h = []) j h) h := by
    have repairs := (concludeHardLock_uses setting job endpoint result).mono
      fun _ repairs => repairs.assists.lockFree
    exact (releaseQuietly_keeps guard one).mono fun _ => balanced_of_uses repairs j
  exact inside.mono (fun _ => conclude (.ok ())) fun fault => conclude (.error fault)

theorem work_balanced : Balanced (work setting job) := by
  have stable := lockFree_stable []
  rw [work_eq]
  refine .bind ?stoodBy fun _ => .bind ?prepared fun endpoint => .bind ?copied fun syncerId =>
    .bind (catchUpSoftly_balanced setting job endpoint) fun _ =>
    .bind unlessStopping_balanced fun _ => catchUpHard_balanced setting job endpoint syncerId
  case stoodBy =>
    exact standBy_preserves setting job (stable.mono fun _ waits => waits.assists.lockFree)
      (stable.mono lockFree_of_looks) fun _ _ _ => id
  case prepared =>
    exact balanced_of_uses ((prepare_uses setting job).mono fun c prepares => prepares.lockFree)
  case copied =>
    exact balanced_of_uses ((copyShard_uses setting job endpoint).mono fun c copies =>
      copies.lockFree)

theorem run_keeps_lockLaw :
    (run setting job).Keeps LockLaw (fun _ h => heldLocks h = []) [] := by
  have closes := (lockFree_stable []).mono fun _ (closes : Call.Closes job _) =>
    closes.assists.lockFree
  have begins : Call.LockFree .now := ⟨rfl, rfl⟩
  refine (keeps_run_of_stable setting job (expected_of_lockFree begins) (fun _ => closes)
    fun began => ?_).mono ?_
  · exact work_balanced setting job {} _ (heldLocks_lockFree (h := []) rfl begins)
  · rintro _ h ⟨_, _, _, free⟩
    exact free

end

theorem orderly_of_keeps {α : Type} {p : Act α} {h es : History surroundings} {a : α}
    (k : p.Keeps LockLaw (fun _ h => heldLocks h = []) h) (runs : Runs p es a) :
    Orderly (heldLocks h) es := by
  induction es generalizing p h with
  | nil =>
    cases runs
    exact k
  | cons e es ih =>
    cases runs with
    | call tail =>
      refine ⟨k.1, ?_⟩
      have rest := ih (k.2 _) tail
      rwa [heldLocks_append] at rest

theorem single_of_keeps {α : Type} {p q : Act α} {Q : α → History surroundings → Prop}
    {h es : History surroundings} (k : p.Keeps LockLaw Q h) (steps : Steps p es q)
    (single : (heldLocks h).length ≤ 1) : (heldLocks (h ++ es)).length ≤ 1 := by
  induction steps generalizing h with
  | refl p => simpa using single
  | call tail ih =>
    have next := ih (k.2 _) (by
      rw [heldLocks_append]
      exact holding_length_le k.1 single)
    simpa using next

/-- In a complete attempt every lock is released once, and at no moment of an attempt, complete or
not, are two locks held. -/
theorem run_releases_locks (setting : Setting) (job : Job) (es : History surroundings) :
    (∀ report, Runs (run setting job) es report → LocksPaired es) ∧
      ∀ q, Steps (run setting job) es q → (heldLocks es).length ≤ 1 := by
  have k := run_keeps_lockLaw setting job
  constructor
  · intro report runs
    exact (orderly_of_keeps k runs).paired
  · intro q steps
    exact single_of_keeps k steps (Nat.zero_le 1)

theorem calmRun_releases_locks :
    Runs (run calmSetting calmJob) calmRun.1 calmRun.2 ∧
      (calmRun.1.filterMap fun e => Call.acquires e.call).length = 2 ∧
      LocksPaired calmRun.1 ∧ (heldLocks calmRun.1).length ≤ 1 := by
  have law := run_releases_locks calmSetting calmJob calmRun.1
  exact ⟨calmRun_runs, by decide +kernel, law.1 _ calmRun_runs, law.2 _ calmRun_runs⟩

end FollowerSync.Attempt
