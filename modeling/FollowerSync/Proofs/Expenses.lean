import FollowerSync.Proofs.Footprints

set_option autoImplicit false

namespace FollowerSync.Attempt
open Leader

inductive Resource where
  | leader
  | catchUp
  | bulkSync
  | finalize
  deriving DecidableEq

def Call.resource? : Call → Option Resource
  | .leader .. => some .leader
  | .catchUp .. => some .catchUp
  | .bulkSync .. => some .bulkSync
  | .finalize .. => some .finalize
  | _ => none

def spent (k : Resource) (h : History surroundings) : Nat :=
  h.countP fun e => Call.resource? e.call = some k

/-- How much of each an attempt may spend that follows the log in so many rounds: of requests to
the leader, three in each round, one to count the documents, and five from the hard lock on. -/
def allowance (rounds : Nat) : Resource → Nat
  | .leader => 3 * rounds + 6
  | .catchUp => rounds
  | .bulkSync | .finalize => 1

def fee (k k' : Resource) : Nat := if k' = k then 1 else 0

def Call.price (k : Resource) (c : Call) : Nat := c.resource?.elim 0 (fee k)

def Funded (k : Resource) (limit left : Nat) (h : History surroundings) : Prop :=
  spent k h + left ≤ limit

def Payable (k : Resource) (limit : Nat) (h : History surroundings) (c : Call) : Prop :=
  Funded k limit (c.price k) h

/-- The program spends at most `n`, out of whatever there is. -/
def Spends {α : Type} (k : Resource) (n : Nat) (p : Act α) : Prop :=
  ∀ limit left h, Funded k limit (n + left) h →
    p.Keeps (Payable k limit) (fun _ => Funded k limit left) h

def Costs {α : Type} (k : Resource) (n : Nat) (s : Stage α) : Prop :=
  ∀ limit left j h, Funded k limit (n + left) h → s.Keeps (Payable k limit)
    (fun _ _ => Funded k limit left) (fun _ _ => Funded k limit left) j h

section
variable {k : Resource} {limit left m n : Nat} {h : History surroundings} {c : Call}

theorem spent_append (e : Event surroundings) :
    spent k (h ++ [e]) = spent k h + Call.price k e.call := by
  unfold spent Call.price
  rw [List.countP_append, List.countP_singleton]
  cases Call.resource? e.call <;> simp [fee]

theorem Funded.mono (funded : Funded k limit m h) (le : n ≤ m) : Funded k limit n h :=
  Nat.le_trans (Nat.add_le_add_left le _) funded

theorem Funded.pay (funded : Funded k limit (c.price k + left) h) (r : c.Reply) :
    Funded k limit left (h ++ [⟨c, r⟩]) := by
  unfold Funded at funded ⊢
  rwa [spent_append, Nat.add_assoc]

theorem Funded.payable (funded : Funded k limit (c.price k + left) h) : Payable k limit h c :=
  funded.mono (Nat.le_add_right _ _)

theorem Funded.of_add (funded : Funded k limit (n + left) h) : Funded k limit left h :=
  funded.mono (Nat.le_add_left _ _)

theorem funded_stable (k : Resource) (limit left : Nat) :
    Stage.Stable (Payable k limit) (fun c => c.resource? = none) fun _ => Funded k limit left where
  allowed := by
    intro _ h c funded free
    unfold Payable Call.price
    rw [free]
    exact funded.mono (Nat.zero_le left)
  kept := by
    intro _ h c r funded free
    refine Funded.pay ?_ r
    unfold Call.price
    rwa [free, Option.elim_none, Nat.zero_add]

theorem spends_ask (priced : c.price k = n) : Spends k n (ask c) := by
  subst priced
  exact fun _ _ _ funded => ⟨funded.payable, funded.pay⟩

end

section
variable {α β : Type} {k : Resource} {m n : Nat} {s : Stage α}

theorem Costs.mono (costs : Costs k n s) (le : n ≤ m) : Costs k m s :=
  fun limit left j h funded => costs limit left j h (funded.mono (Nat.add_le_add_right le left))

theorem Costs.bind {f : α → Stage β} (first : Costs k n s) (rest : ∀ a, Costs k m (f a)) :
    Costs k (n + m) (s >>= f) := by
  intro limit left j h funded
  rw [Nat.add_assoc] at funded
  rw [Stage.keeps_bind]
  refine (first limit (m + left) j h funded).mono (fun a => rest a limit left) ?_
  exact fun _ _ _ funded => funded.of_add

theorem Costs.after {f : α → Stage β} (first : Costs k 0 s) (rest : ∀ a, Costs k m (f a)) :
    Costs k m (s >>= f) :=
  (first.bind rest).mono (Nat.le_of_eq (Nat.zero_add m))

theorem Costs.andFree {f : α → Stage β} (first : Costs k n s) (rest : ∀ a, Costs k 0 (f a)) :
    Costs k n (s >>= f) :=
  first.bind rest

theorem costs_of_uses {K : Call → Prop} (u : s.Uses K) (free : ∀ c, K c → c.resource? = none) :
    Costs k 0 s := by
  intro limit left j h funded
  exact u.preserves ((funded_stable k limit left).mono free) j h funded.of_add

theorem costs_pure (a : α) : Costs k 0 (pure a : Stage α) := fun _ _ _ _ funded => funded.of_add

theorem costs_throw (fault : Fault) : Costs k 0 (throw fault : Stage α) :=
  fun _ _ _ _ funded => funded.of_add

theorem costs_get : Costs k 0 (get : Stage Journal) := fun _ _ _ _ funded => funded.of_add

theorem costs_modify (f : Journal → Journal) : Costs k 0 (modify f : Stage Unit) :=
  fun _ _ _ _ funded => funded.of_add

theorem costs_act {p : Act α} (spends : Spends k n p) : Costs k n (Stage.act p) := by
  intro limit left j h funded
  rw [Stage.keeps_act]
  exact spends limit left h funded

theorem costs_attempt {p : Act (Except Fault α)} (spends : Spends k n p) :
    Costs k n (Stage.attempt p) := by
  refine (costs_act spends).andFree ?_
  rintro (fault | a)
  · exact costs_throw fault
  · exact costs_pure a

theorem costs_result (costs : Costs k n s) : Costs k n (Stage.result s) := by
  intro limit left j h funded
  rw [Stage.keeps_result]
  exact costs limit left j h funded

end

theorem Call.Looks.free {c : Call} (looks : c.Looks) : c.resource? = none := by
  cases c with
  | leader | bulkSync | catchUp | finalize => cases looks
  | _ => rfl

theorem Call.Bides.free {c : Call} {job : Job} (bides : c.Bides job) : c.resource? = none := by
  cases c with
  | leader | bulkSync | catchUp | finalize => cases bides
  | _ => rfl

theorem Call.Closes.free {c : Call} {job : Job} (closes : c.Closes job) : c.resource? = none := by
  cases c with
  | leader | bulkSync | catchUp | finalize => cases closes
  | _ => rfl

section
variable {α : Type} {k : Resource} {m n : Nat} (setting : Setting) (job : Job) (endpoint : String)

theorem classify_costs (fault : Fault) : Costs k 0 (classify setting job fault) :=
  costs_of_uses (classify_uses setting job fault) fun _ => Call.Looks.free

theorem classified_costs {p : Act (Except Fault α)} (spends : Spends k n p) :
    Costs k n (classified setting job p) := by
  refine (costs_act spends).andFree ?_
  rintro (fault | a)
  · exact (classify_costs setting job fault).andFree fun fault => costs_throw fault
  · exact costs_pure a

theorem unlessStopping_costs : Costs k 0 Stage.unlessStopping :=
  costs_of_uses unlessStopping_uses fun _ => Call.Looks.free

theorem prepare_costs : Costs k (fee k .leader) (prepare setting job) := by
  refine .after (costs_modify _) fun _ => .after ?found fun _ => .after ?endpoint fun endpoint =>
    .andFree ?counted fun _ => .after ?requeued fun _ => .after ?clock fun _ => .after ?tailing
      fun _ => .after (unlessStopping_costs) fun _ => costs_pure endpoint
  case found => exact costs_of_uses (K := fun c => c.resource? = none) (lookupShard_uses job rfl) fun _ => id
  case endpoint => exact costs_attempt (spends_ask rfl)
  case counted =>
    have spends := spends_ask (k := k) (c := .leader endpoint
      (.collectionCount job.database job.shard) setting.settings.leaderCountTimeout) rfl
    refine (costs_attempt spends).andFree fun onLeader => .after (costs_modify _) fun _ => ?_
    exact .after (costs_attempt (spends_ask rfl)) fun here => costs_modify _
  case requeued => exact costs_of_uses (K := fun c => c.resource? = none) (checkRequeue_uses setting job rfl) fun _ => id
  case clock => exact costs_of_uses (startAttemptClock_uses setting job) fun _ => Call.Looks.free
  case tailing => exact costs_act (spends_ask rfl)

theorem copyShard_costs : Costs k (fee k .bulkSync) (copyShard setting job endpoint) := by
  refine .after (costs_modify _) fun _ => .after ?named fun _ => .after costs_get fun j =>
    .after ?opened fun _ => .andFree ?copied fun outcome => ?_
  case named => exact costs_attempt (spends_ask rfl)
  case opened => exact costs_act (spends_ask rfl)
  case copied => exact classified_costs setting job (spends_ask rfl)
  split
  · exact .after (costs_throw _) fun _ => .after (costs_modify _) fun _ => costs_pure _
  · exact .after (costs_modify _) fun _ => costs_pure _

/-- A lock that is granted took two requests. One that is refused may take a third, to cancel it. -/
theorem acquireLock_costs (mode : LockMode) (ttl : Duration) {f : Guard → Stage α}
    (worth : fee k .leader ≤ m) (rest : ∀ guard, Costs k m (f guard)) :
    Costs k (2 * fee k .leader + m) (acquireLock setting job endpoint mode ttl >>= f) := by
  intro limit left j h funded
  have stable := (funded_stable k limit left).mono fun _ => Call.Looks.free
  rw [Stage.keeps_bind]
  refine (keeps_classified setting job (Q := fun _ _ => Funded k limit (m + left)) stable ?_).mono
    (fun guard => rest guard limit left) fun _ _ _ => id
  have funded : Funded k limit (fee k .leader + (fee k .leader + (m + left))) h :=
    funded.mono (by omega)
  have worthy : fee k .leader + left ≤ m + left := Nat.add_le_add_right worth left
  rw [keeps_acquire]
  intro fetch
  refine ⟨funded.payable (c := fetch), fun fault => ?unfetched, fun lockId => ?fetched⟩
  case unfetched => exact ((funded.pay (c := fetch) _).of_add).of_add
  case fetched =>
    intro fetched lock cancel
    have funded : Funded k limit (fee k .leader + (m + left)) fetched :=
      funded.pay (c := fetch) _
    refine ⟨funded.payable (c := lock), fun grant => funded.pay (c := lock) _, fun fault => ?_⟩
    intro refused
    -- What was set aside for the work under the lock pays for the cancellation.
    have funded : Funded k limit (fee k .leader + left) refused :=
      (funded.pay (c := lock) _).mono worthy
    exact ⟨fun _ => funded.of_add, fun _ => ⟨funded.payable (c := cancel), funded.pay (c := cancel)⟩⟩

theorem release_spends (guard : Guard) : Spends k (fee k .leader) guard.release := by
  intro limit left h funded
  rw [keeps_release]
  intro cancel
  exact ⟨funded.payable (c := cancel), funded.pay (c := cancel)⟩

theorem releaseQuietly_spends (guard : Guard) : Spends k (fee k .leader) guard.releaseQuietly :=
  fun limit left h funded => (Program.keeps_bind _).mpr (release_spends guard limit left h funded)

theorem followHeld_costs (budget : Duration) (guard : Guard) :
    Costs k (fee k .catchUp + fee k .leader) (followHeld setting job budget guard) := by
  refine .after costs_get fun j => .bind (costs_act (spends_ask rfl)) ?_
  rintro (fault | outcome)
  · refine .andFree (costs_act (releaseQuietly_spends guard)) fun _ => ?_
    exact (classify_costs setting job fault).andFree fun fault => costs_throw fault
  · refine .andFree (costs_attempt (release_spends guard)) fun _ => ?_
    exact (costs_modify _).after fun _ => costs_pure _

theorem softRound_costs (budget : Duration) :
    Costs k (3 * fee k .leader + fee k .catchUp) (softRound setting job endpoint budget) := by
  rw [softRound_eq]
  refine .after unlessStopping_costs fun _ => (acquireLock_costs setting job endpoint .soft _
    (Nat.le_add_left _ _) (followHeld_costs setting job budget)).mono ?_
  omega

theorem softRounds_costs (budget : Duration) (rounds : Nat) :
    Costs k (rounds * (3 * fee k .leader + fee k .catchUp))
      (softRounds setting job endpoint budget rounds) := by
  induction rounds with
  | zero => exact (costs_pure ()).mono (Nat.zero_le _)
  | succ rounds ih =>
    rw [Nat.succ_mul, Nat.add_comm]
    refine (softRound_costs setting job endpoint budget).bind fun timedOut => ?_
    cases timedOut with
    | false => exact (costs_pure ()).mono (Nat.zero_le _)
    | true => exact ih

theorem catchUpSoftly_costs :
    Costs k (setting.settings.softLockMaxRounds.toNat * (3 * fee k .leader + fee k .catchUp))
      (catchUpSoftly setting job endpoint) := by
  refine .after (costs_modify _) fun _ => ?_
  cases setting.settings.softCatchUpBudget? with
  | none =>
    have halts : (Stage.act (stop .outOfRange : Act Unit)).Uses fun c => c.resource? = none :=
      Stage.uses_act ((uses_stop _).mpr rfl)
    exact (costs_of_uses halts fun _ => id).mono (Nat.zero_le _)
  | some budget => exact softRounds_costs setting job endpoint budget _

theorem finalizeAndRegister_costs (syncerId lockId : UInt64) :
    Costs k (fee k .finalize + fee k .leader)
      (finalizeAndRegister setting job endpoint syncerId lockId) := by
  refine .after ?adopted fun _ => .bind ?finalized fun _ => .after (costs_modify _) fun _ =>
    .after (costs_attempt (spends_ask rfl)) fun checksum => .after (costs_modify _) fun _ =>
      costs_attempt (spends_ask rfl)
  case adopted =>
    refine .after costs_get fun j => .after (costs_attempt (spends_ask rfl)) fun _ => ?_
    exact costs_act (spends_ask rfl)
  case finalized =>
    exact .after costs_get fun j => classified_costs setting job (spends_ask rfl)

theorem concludeHardLock_costs (result : Except Fault Unit) :
    Costs k (fee k .leader) (concludeHardLock setting job endpoint result) := by
  rcases result with fault | _
  · refine .after costs_get fun j => ?_
    split
    · refine .andFree ?repaired fun _ => costs_throw _
      refine .after (costs_act (spends_ask rfl)) fun _ => .after (costs_attempt (spends_ask rfl))
        fun old => .after (costs_attempt (spends_ask rfl)) fun new => ?_
      split
      · exact .andFree (costs_act (spends_ask rfl)) fun _ => costs_pure _
      · exact (costs_pure _).mono (Nat.zero_le _)
    · exact (costs_throw _).mono (Nat.zero_le _)
  · exact (costs_pure ()).mono (Nat.zero_le _)

theorem registerHeld_costs (syncerId : UInt64) (guard : Guard) :
    Costs k (3 * fee k .leader + fee k .finalize)
      (registerHeld setting job endpoint syncerId guard) := by
  have registered := finalizeAndRegister_costs (k := k) setting job endpoint syncerId guard.lockId
  refine (Costs.after (costs_modify _) fun _ => .bind (costs_result registered) fun result =>
    .bind (costs_act (releaseQuietly_spends guard)) fun _ =>
      concludeHardLock_costs setting job endpoint result).mono ?_
  omega

theorem catchUpHard_costs (syncerId : UInt64) :
    Costs k (5 * fee k .leader + fee k .finalize) (catchUpHard setting job endpoint syncerId) := by
  rw [catchUpHard_eq]
  refine .after (costs_modify _) fun _ => (acquireLock_costs setting job endpoint .hard _
    (by omega) (registerHeld_costs setting job endpoint syncerId)).mono ?_
  omega

theorem work_costs :
    Costs k (allowance setting.settings.softLockMaxRounds.toNat k) (work setting job) := by
  rw [work_eq]
  refine (Costs.after ?stoodBy fun _ => .bind (prepare_costs setting job) fun endpoint =>
    .bind (copyShard_costs setting job endpoint) fun syncerId =>
      .bind (catchUpSoftly_costs setting job endpoint) fun _ => .after unlessStopping_costs fun _ =>
        catchUpHard_costs setting job endpoint syncerId).mono ?_
  case stoodBy => exact costs_of_uses (standBy_bides setting job) fun _ => Call.Bides.free
  cases k <;> simp +decide only [fee, allowance, if_true, if_false] <;> omega

theorem run_keeps_payable :
    (run setting job).Keeps (Payable k (allowance setting.settings.softLockMaxRounds.toNat k))
      (fun _ => Funded k (allowance setting.settings.softLockMaxRounds.toNat k) 0) [] := by
  have free (left : Nat) := funded_stable k (allowance setting.settings.softLockMaxRounds.toNat k) left
  have funded : Funded k (allowance setting.settings.softLockMaxRounds.toNat k) _ [] :=
    Nat.le_of_eq (Nat.zero_add _)
  have closes (_ : Option Fault) := (free 0).mono fun _ (closes : Call.Closes job _) => closes.free
  refine (keeps_run_of_stable setting job ((free _).allowed {} [] .now funded rfl) closes
    fun began => ?_).mono ?_
  · exact work_costs setting job _ 0 {} _ ((free _).kept {} [] .now began funded rfl)
  · rintro _ h ⟨_, _, _, funded⟩
    exact funded

/-- No attempt, complete or not, makes more calls of any kind than it is allowed. -/
theorem spent_le_allowance {es : History surroundings} {q : Act Report}
    (steps : Steps (run setting job) es q) (k : Resource) :
    spent k es ≤ allowance setting.settings.softLockMaxRounds.toNat k :=
  (run_keeps_payable setting job).holds steps (fun _ _ funded => funded.mono (Nat.zero_le _))
    fun _ _ => id

end
end FollowerSync.Attempt
