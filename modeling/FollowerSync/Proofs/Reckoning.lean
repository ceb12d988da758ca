import FollowerSync.Proofs.Books

/-!
# Answers reckoned from the past

Whatever the maintenance state answers can be reckoned from the operations that came before, and an
answer about a shard from those on the same shard. So it does not matter how the operations on
different shards are interleaved.
-/

set_option autoImplicit false

namespace FollowerSync.Maintenance
open Attempt (queued)

variable {past future ops : List Operation} {s t : Store} {op last : Operation} {key : ShardKey}

/-- The operations since the last one that was `last`, the latest first; all of them if there was
none. -/
def since (last : Operation) (past : List Operation) : List Operation :=
  past.reverse.takeWhile (· ≠ last)

theorem since_append (last : Operation) (past : List Operation) (op : Operation) :
    since last (past ++ [op]) = if op = last then [] else op :: since last past := by
  unfold since
  rw [List.reverse_append, List.reverse_singleton, List.singleton_append, List.takeWhile_cons]
  by_cases same : op = last
  · simp [same]
  · simp [same]

theorem since_length_le (last : Operation) (past : List Operation) :
    (since last past).length ≤ past.length := by
  have sublist : since last past <+: past.reverse := List.takeWhile_prefix _
  have le := sublist.length_le
  rw [List.length_reverse] at le
  exact le

def failuresOf (key : ShardKey) (past : List Operation) : Nat :=
  (since (.clearFailures key) past).count (.recordFailure key)

def holdsLock (key : ShardKey) (past : List Operation) : Bool :=
  (since (.unlock key) past).contains (.lock key)

def versionOf (key : ShardKey) (past : List Operation) : Nat := past.count (.advanceVersion key)

def pending (past : List Operation) : List Job :=
  (since .takeRequeued past).reverse.filterMap queued

/-- What an operation is to be answered after those in the past. -/
def reckon (past : List Operation) : (op : Operation) → op.Answer
  | .failures key => failuresOf key past
  | .recordFailure key => failuresOf key past + 1
  | .lock key => !holdsLock key past
  | .isLocked key => holdsLock key past
  | .advanceVersion key => versionOf key past + 1
  | .version key => versionOf key past
  | .takeRequeued => pending past
  | .timedOut => past.count .countTimedOut
  | .wrongChecksums => past.count .countWrongChecksum
  | .clearFailures _ | .unlock _ | .requeue .. | .countTimedOut | .countWrongChecksum => ()

/-- The state is what the operations in the past make of an empty one. -/
structure Tallied (past : List Operation) (s : Store) : Prop where
  failures (key : ShardKey) : s.failures key = failuresOf key past
  locked (key : ShardKey) : s.locked key = holdsLock key past
  version (key : ShardKey) : s.version key = versionOf key past
  requeued : s.requeued = pending past
  timedOut : s.timedOut = past.count .countTimedOut
  wrongChecksums : s.wrongChecksums = past.count .countWrongChecksum

theorem failures_after (s : Store) (op : Operation) (key : ShardKey) :
    (s.after op).failures key = if op = .clearFailures key then 0 else
      if op = .recordFailure key then s.failures key + 1 else s.failures key := by
  cases op <;> simp [Store.after, Store.perform, assign, eq_comm]
  grind

theorem locked_after (s : Store) (op : Operation) (key : ShardKey) :
    (s.after op).locked key = if op = .unlock key then false else
      if op = .lock key then true else s.locked key := by
  cases op <;> simp [Store.after, Store.perform, assign, eq_comm]

theorem version_after (s : Store) (op : Operation) (key : ShardKey) :
    (s.after op).version key =
      if op = .advanceVersion key then s.version key + 1 else s.version key := by
  cases op <;> simp [Store.after, Store.perform, assign, eq_comm]
  grind

theorem requeued_after (s : Store) (op : Operation) :
    (s.after op).requeued =
      if op = .takeRequeued then [] else s.requeued ++ (queued op).toList := by
  cases op <;> simp [Store.after, Store.perform, queued]

theorem counts_after (s : Store) (op : Operation) :
    (s.after op).timedOut = s.timedOut + [op].count .countTimedOut ∧
      (s.after op).wrongChecksums = s.wrongChecksums + [op].count .countWrongChecksum := by
  cases op <;> simp [Store.after, Store.perform]

theorem failuresOf_append (past : List Operation) (op : Operation) (key : ShardKey) :
    failuresOf key (past ++ [op]) = if op = .clearFailures key then 0 else
      if op = .recordFailure key then failuresOf key past + 1 else failuresOf key past := by
  unfold failuresOf
  rw [since_append]
  split
  · rfl
  · rw [List.count_cons]
    split <;> simp_all

theorem holdsLock_append (past : List Operation) (op : Operation) (key : ShardKey) :
    holdsLock key (past ++ [op]) = if op = .unlock key then false else
      if op = .lock key then true else holdsLock key past := by
  unfold holdsLock
  rw [since_append]
  split
  · rfl
  · rw [List.contains_cons]
    by_cases locks : op = .lock key
    · simp [locks]
    · simp [locks, Ne.symm locks]

theorem versionOf_append (past : List Operation) (op : Operation) (key : ShardKey) :
    versionOf key (past ++ [op]) =
      if op = .advanceVersion key then versionOf key past + 1 else versionOf key past := by
  unfold versionOf
  rw [List.count_append, List.count_singleton]
  split <;> simp_all

theorem pending_append (past : List Operation) (op : Operation) :
    pending (past ++ [op]) =
      if op = .takeRequeued then [] else pending past ++ (queued op).toList := by
  unfold pending
  rw [since_append]
  split
  · rfl
  · rw [List.reverse_cons, List.filterMap_append]
    cases found : queued op <;> simp [found]

theorem tallied_nil : Tallied [] {} where
  failures _ := rfl
  locked _ := rfl
  version _ := rfl
  requeued := rfl
  timedOut := rfl
  wrongChecksums := rfl

theorem Tallied.after (tallied : Tallied past s) (op : Operation) :
    Tallied (past ++ [op]) (s.after op) where
  failures key := by rw [failures_after, failuresOf_append, tallied.failures]
  locked key := by rw [locked_after, holdsLock_append, tallied.locked]
  version key := by rw [version_after, versionOf_append, tallied.version]
  requeued := by rw [requeued_after, pending_append, tallied.requeued]
  timedOut := by rw [(counts_after s op).1, List.count_append, tallied.timedOut]
  wrongChecksums := by rw [(counts_after s op).2, List.count_append, tallied.wrongChecksums]

theorem Tallied.afterAll (tallied : Tallied past s) (ops : List Operation) :
    Tallied (past ++ ops) (s.afterAll ops) := by
  induction ops generalizing past s with
  | nil =>
    rw [List.append_nil]
    exact tallied
  | cons op ops ih =>
    have later := ih (tallied.after op)
    rw [List.append_assoc] at later
    exact later

theorem tallied_afterAll (past : List Operation) : Tallied past (Store.afterAll {} past) :=
  tallied_nil.afterAll past

theorem Tallied.answer_eq (tallied : Tallied past s) (op : Operation) :
    (s.perform op).1 = reckon past op := by
  obtain ⟨failures, locked, version, requeued, timedOut, wrongChecksums⟩ := tallied
  cases op with
  | failures key => exact failures key
  | recordFailure key => exact congrArg (· + 1) (failures key)
  | lock key => exact congrArg (!·) (locked key)
  | isLocked key => exact locked key
  | advanceVersion key => exact congrArg (· + 1) (version key)
  | version key => exact version key
  | takeRequeued => exact requeued
  | timedOut => exact timedOut
  | wrongChecksums => exact wrongChecksums
  | _ => rfl

abbrev Answered := (op : Operation) × op.Answer

def Store.transcript (s : Store) : List Operation → List Answered
  | [] => []
  | op :: ops => ⟨op, (s.perform op).1⟩ :: (s.after op).transcript ops

theorem transcript_append (s : Store) (past future : List Operation) :
    s.transcript (past ++ future) = s.transcript past ++ (s.afterAll past).transcript future := by
  induction past generalizing s with
  | nil => rfl
  | cons op past ih => exact congrArg (List.cons _) (ih (s.after op))

theorem transcript_length (s : Store) (ops : List Operation) :
    (s.transcript ops).length = ops.length := by
  induction ops generalizing s with
  | nil => rfl
  | cons op ops ih => exact congrArg (· + 1) (ih (s.after op))

theorem exists_of_transcript_eq {xs zs : List Answered} {entry : Answered}
    (split : s.transcript ops = xs ++ entry :: zs) :
    ∃ past future, ops = past ++ entry.1 :: future ∧ xs = s.transcript past ∧
      entry.2 = ((s.afterAll past).perform entry.1).1 ∧
      zs = (s.afterAll (past ++ [entry.1])).transcript future := by
  induction xs generalizing s ops with
  | nil =>
    cases ops with
    | nil => cases split
    | cons op future =>
      rw [List.nil_append] at split
      cases split
      exact ⟨[], future, rfl, rfl, rfl, rfl⟩
  | cons x xs ih =>
    cases ops with
    | nil => cases split
    | cons op ops =>
      obtain ⟨rfl, tail⟩ := List.cons.inj split
      obtain ⟨past, future, rfl, rfl, answer, rest⟩ := ih tail
      exact ⟨op :: past, future, rfl, rfl, answer, rest⟩

theorem exists_mem_transcript (mem : op ∈ ops) (s : Store) :
    ∃ answer, ⟨op, answer⟩ ∈ s.transcript ops := by
  obtain ⟨past, future, rfl⟩ := List.append_of_mem mem
  rw [transcript_append]
  exact ⟨_, List.mem_append_right _ List.mem_cons_self⟩

def handedOut : Answered → List Job
  | ⟨.takeRequeued, jobs⟩ => jobs
  | _ => []

theorem handedOut_perform (s : Store) (op : Operation) :
    handedOut ⟨op, (s.perform op).1⟩ ++ (s.after op).requeued =
      s.requeued ++ (queued op).toList := by
  cases op <;> simp [handedOut, Store.after, Store.perform, queued]

/-- Whatever went into the queue was handed out or is still in it, in the order in which it went
in. -/
theorem handedOut_transcript (s : Store) (ops : List Operation) :
    (s.transcript ops).flatMap handedOut ++ (s.afterAll ops).requeued =
      s.requeued ++ ops.filterMap queued := by
  induction ops generalizing s with
  | nil => exact (List.append_nil _).symm
  | cons op ops ih =>
    have first := handedOut_perform s op
    rw [Store.transcript, List.flatMap_cons, List.append_assoc, Store.afterAll_cons, ih,
      ← List.append_assoc, first, List.append_assoc]
    cases added : queued op <;> simp [added]

theorem handedOut_all (ops : List Operation) :
    (Store.transcript {} (ops ++ [.takeRequeued])).flatMap handedOut = ops.filterMap queued := by
  have whole := handedOut_transcript {} (ops ++ [.takeRequeued])
  have emptied : (Store.afterAll {} (ops ++ [.takeRequeued])).requeued = [] := by
    rw [Store.afterAll_append]
    rfl
  rw [emptied, List.append_nil, List.filterMap_append] at whole
  exact whole.trans (List.append_nil _)

def Operation.key? : Operation → Option ShardKey
  | .failures key | .recordFailure key | .clearFailures key => some key
  | .lock key | .unlock key | .isLocked key => some key
  | .advanceVersion key | .version key => some key
  | .requeue .. | .takeRequeued => none
  | .countTimedOut | .timedOut | .countWrongChecksum | .wrongChecksums => none

def part (k : Option ShardKey) (ops : List Operation) : List Operation :=
  ops.filter (·.key? = k)

theorem part_append (k : Option ShardKey) (past future : List Operation) :
    part k (past ++ future) = part k past ++ part k future := List.filter_append ..

theorem part_of_eq {k : Option ShardKey} (about : op.key? = k) : part k [op] = [op] := by
  simp [part, about]

theorem part_of_ne {k : Option ShardKey} (other : op.key? ≠ k) : part k [op] = [] := by
  simp [part, other]

theorem count_part (past : List Operation) (op : Operation) :
    (part op.key? past).count op = past.count op :=
  List.count_filter (by simp)

theorem since_part (last : Operation) (past : List Operation) :
    since last (part last.key? past) = part last.key? (since last past) := by
  unfold since part
  rw [← List.filter_reverse]
  induction past.reverse with
  | nil => rfl
  | cons op ops ih =>
    by_cases same : op = last
    · simp [same]
    · by_cases inPart : op.key? = last.key?
      · simpa [same, inPart] using ih
      · simpa [same, inPart] using ih

theorem failuresOf_part (key : ShardKey) (past : List Operation) :
    failuresOf key (part (some key) past) = failuresOf key past := by
  have cleared : since (.clearFailures key) (part (some key) past) =
    part (some key) (since (.clearFailures key) past) := since_part _ _
  unfold failuresOf
  rw [cleared]
  exact count_part _ (.recordFailure key)

theorem holdsLock_part (key : ShardKey) (past : List Operation) :
    holdsLock key (part (some key) past) = holdsLock key past := by
  have unlocked : since (.unlock key) (part (some key) past) =
    part (some key) (since (.unlock key) past) := since_part _ _
  unfold holdsLock
  rw [unlocked]
  simp [part, List.contains_eq_mem, Operation.key?]

theorem pending_part (past : List Operation) : pending (part none past) = pending past := by
  have taken : since .takeRequeued (part none past) = part none (since .takeRequeued past) :=
    since_part _ _
  have unshared (op : Operation) : (if op.key? = none then queued op else none) = queued op := by
    cases op <;> rfl
  unfold pending
  rw [taken, part, ← List.filter_reverse, List.filterMap_filter]
  simp [unshared]

/-- An answer about a shard depends on the operations on this shard alone. -/
theorem reckon_part (past : List Operation) (op : Operation) :
    reckon (part op.key? past) op = reckon past op := by
  cases op with
  | failures key => exact failuresOf_part key past
  | recordFailure key => exact congrArg (· + 1) (failuresOf_part key past)
  | lock key => exact congrArg (!·) (holdsLock_part key past)
  | isLocked key => exact holdsLock_part key past
  | advanceVersion key => exact congrArg (· + 1) (count_part past (.advanceVersion key))
  | version key => exact count_part past (.advanceVersion key)
  | takeRequeued => exact pending_part past
  | timedOut => exact count_part past .countTimedOut
  | wrongChecksums => exact count_part past .countWrongChecksum
  | _ => rfl

theorem transcript_part {k : Option ShardKey} (whole : Tallied past s)
    (apart : Tallied (part k past) t) (ops : List Operation) :
    (s.transcript ops).filter (·.1.key? = k) = t.transcript (part k ops) := by
  induction ops generalizing past s t with
  | nil => rfl
  | cons op ops ih =>
    have next := whole.after op
    by_cases about : op.key? = k
    · have same : (s.perform op).1 = (t.perform op).1 := by
        rw [whole.answer_eq, apart.answer_eq, ← about, reckon_part]
      have apart' : Tallied (part k (past ++ [op])) (t.after op) := by
        rw [part_append, part_of_eq about]
        exact apart.after op
      have rest := ih next apart'
      simpa [Store.transcript, part, about, same] using rest
    · have apart' : Tallied (part k (past ++ [op])) t := by
        rw [part_append, part_of_ne about, List.append_nil]
        exact apart
      have rest := ih next apart'
      simpa [Store.transcript, part, about] using rest

theorem holdsLock_iff : holdsLock key past = true ↔
    ∃ before after, past = before ++ .lock key :: after ∧ .unlock key ∉ after := by
  unfold holdsLock since
  rw [List.contains_iff_mem]
  constructor
  · intro mem
    obtain ⟨after, before, split⟩ := List.append_of_mem mem
    obtain ⟨rest, whole⟩ : ∃ rest, past.reverse =
        past.reverse.takeWhile (· ≠ .unlock key) ++ rest :=
      ⟨_, List.takeWhile_append_dropWhile.symm⟩
    rw [split] at whole
    refine ⟨(before ++ rest).reverse, after.reverse, ?_, ?_⟩
    · rw [← List.reverse_reverse past, whole]
      simp
    intro unlocked
    have kept : .unlock key ∈ past.reverse.takeWhile (· ≠ .unlock key) := by
      rw [split]
      exact List.mem_append_left _ (List.mem_reverse.mp unlocked)
    simpa using List.all_eq_true.mp List.all_takeWhile _ kept
  · rintro ⟨before, after, rfl, kept⟩
    rw [List.reverse_append, List.reverse_cons, List.append_assoc,
      List.takeWhile_append_of_pos (by grind)]
    simp

theorem unlocked_between {xs ys zs : List Answered}
    (split : Store.transcript {} ops = xs ++ ⟨.lock key, true⟩ :: (ys ++ ⟨.lock key, true⟩ :: zs)) :
    ⟨.unlock key, ()⟩ ∈ ys := by
  obtain ⟨past, future, -, -, -, rest⟩ := exists_of_transcript_eq split
  obtain ⟨between, -, -, rfl, granted, -⟩ := exists_of_transcript_eq rest.symm
  have whole := (tallied_afterAll (past ++ [.lock key])).afterAll between
  rw [whole.answer_eq] at granted
  have free : holdsLock key (past ++ [.lock key] ++ between) = false := by
    simpa [reckon] using granted
  by_cases unlocked : .unlock key ∈ between
  · obtain ⟨answer, mem⟩ := exists_mem_transcript unlocked (Store.afterAll {} (past ++ [.lock key]))
    exact mem
  · have held := holdsLock_iff.mpr ⟨past, between, rfl, unlocked⟩
    rw [List.append_assoc] at free
    simp_all

def Operation.Bounded : (op : Operation) → op.Answer → Prop
  | .failures _, n | .recordFailure _, n | .advanceVersion _, n | .version _, n => n < UInt64.size
  | .timedOut, n | .wrongChecksums, n => n < UInt64.size
  | _, _ => True

theorem reckon_bounded (few : past.length + 1 < UInt64.size) (op : Operation) :
    op.Bounded (reckon past op) := by
  have failures (key : ShardKey) : failuresOf key past ≤ past.length :=
    Nat.le_trans List.count_le_length (since_length_le _ past)
  have count (op : Operation) : past.count op ≤ past.length := List.count_le_length
  cases op with
  | failures key => exact Nat.lt_of_le_of_lt (failures key) (by omega)
  | recordFailure key => exact Nat.lt_of_le_of_lt (Nat.succ_le_succ (failures key)) few
  | advanceVersion key => exact Nat.lt_of_le_of_lt (Nat.succ_le_succ (count _)) few
  | version key => exact Nat.lt_of_le_of_lt (count _) (by omega)
  | timedOut => exact Nat.lt_of_le_of_lt (count _) (by omega)
  | wrongChecksums => exact Nat.lt_of_le_of_lt (count _) (by omega)
  | _ => trivial

theorem getElem?_transcript (past : List Operation) (op : Operation) (future : List Operation) :
    (Store.transcript {} (past ++ op :: future))[past.length]? = some ⟨op, reckon past op⟩ := by
  rw [transcript_append, ← transcript_length {} past, List.getElem?_append_right (Nat.le_refl _),
    Nat.sub_self, ← (tallied_afterAll past).answer_eq]
  rfl

/-- The store answers for a shard from what was done to that shard alone, in whatever order the
shards take turns, and locks none twice without an unlocking in between. -/
theorem answers_kept_apart (ops : List Operation) (few : ops.length < UInt64.size) :
    (∀ past op future, ops = past ++ op :: future →
      (Store.transcript {} ops)[past.length]? = some ⟨op, reckon past op⟩ ∧
      op.Bounded (reckon past op) ∧ reckon past op = reckon (part op.key? past) op) ∧
    (∀ k, (Store.transcript {} ops).filter (·.1.key? = k) = Store.transcript {} (part k ops)) ∧
    (∀ ops', (∀ k, part k ops' = part k ops) → ∀ k,
      (Store.transcript {} ops').filter (·.1.key? = k) =
        (Store.transcript {} ops).filter (·.1.key? = k)) ∧
    ∀ key xs ys zs, Store.transcript {} ops =
      xs ++ ⟨.lock key, true⟩ :: (ys ++ ⟨.lock key, true⟩ :: zs) → ⟨.unlock key, ()⟩ ∈ ys := by
  have apart (k : Option ShardKey) (ops : List Operation) :
      (Store.transcript {} ops).filter (·.1.key? = k) = Store.transcript {} (part k ops) :=
    transcript_part tallied_nil tallied_nil ops
  refine ⟨?_, fun k => apart k ops, ?_, fun _ _ _ _ => unlocked_between⟩
  · rintro past op future rfl
    rw [List.length_append, List.length_cons] at few
    exact ⟨getElem?_transcript past op future, reckon_bounded (by omega) op,
      (reckon_part past op).symm⟩
  · intro ops' same k
    rw [apart, apart, same]

def leftShard : ShardKey := ⟨"ab", "c"⟩

def rightShard : ShardKey := ⟨"a", "bc"⟩

def twoShards : List Operation :=
  [.lock leftShard, .recordFailure leftShard, .clearFailures leftShard, .lock rightShard,
    .recordFailure leftShard, .unlock leftShard, .lock leftShard, .failures leftShard,
    .isLocked rightShard]

theorem twoShards_kept_apart :
    twoShards.length < UInt64.size ∧
    (Store.transcript {} twoShards)[7]? = some ⟨.failures leftShard, (1 : Nat)⟩ ∧
    (Store.transcript {} twoShards).filter (·.1.key? = some rightShard) =
      [⟨.lock rightShard, true⟩, ⟨.isLocked rightShard, true⟩] ∧
    ⟨.unlock leftShard, ()⟩ ∈ (Store.transcript {} twoShards).extract 1 6 := by
  have few : twoShards.length < UInt64.size := by decide
  obtain ⟨answers, apart, -, between⟩ := answers_kept_apart twoShards few
  refine ⟨few, ?_, ?_, ?_⟩
  · exact (answers (twoShards.take 7) (.failures leftShard) [.isLocked rightShard] rfl).1
  · exact apart (some rightShard)
  · exact between leftShard [] _
      [⟨.failures leftShard, (1 : Nat)⟩, ⟨.isLocked rightShard, true⟩] rfl

end FollowerSync.Maintenance
