import FollowerSync.Shard.Job

set_option autoImplicit false

namespace FollowerSync.Maintenance

structure Store where
  failures : ShardKey → Nat := fun _ => 0
  locked : ShardKey → Bool := fun _ => false
  version : ShardKey → Nat := fun _ => 0
  /-- Jobs to be run again, the oldest first. -/
  requeued : List Job := []
  timedOut : Nat := 0
  wrongChecksums : Nat := 0

instance : Inhabited Store := ⟨{}⟩

inductive Operation where
  | failures (key : ShardKey)
  | recordFailure (key : ShardKey)
  | clearFailures (key : ShardKey)
  | lock (key : ShardKey)
  | unlock (key : ShardKey)
  | isLocked (key : ShardKey)
  | advanceVersion (key : ShardKey)
  | version (key : ShardKey)
  | requeue (job : Job) (priority : Priority)
  | takeRequeued
  | countTimedOut
  | timedOut
  | countWrongChecksum
  | wrongChecksums
  deriving DecidableEq

@[reducible] def Operation.Answer : Operation → Type
  | failures _ | recordFailure _ | advanceVersion _ | version _ | timedOut | wrongChecksums => Nat
  | lock _ | isLocked _ => Bool
  | clearFailures _ | unlock _ | requeue .. | countTimedOut | countWrongChecksum => Unit
  | takeRequeued => List Job

def assign {α : Type} (f : ShardKey → α) (key : ShardKey) (a : α) : ShardKey → α :=
  fun k => if k = key then a else f k

@[simp] theorem assign_self {α : Type} (f : ShardKey → α) (key : ShardKey) (a : α) :
    assign f key a key = a := by
  simp [assign]

theorem assign_of_ne {α : Type} (f : ShardKey → α) {key k : ShardKey} (a : α) (h : k ≠ key) :
    assign f key a k = f k := by
  simp [assign, h]

namespace Store

def perform (s : Store) : (op : Operation) → op.Answer × Store
  | .failures key => (s.failures key, s)
  | .recordFailure key =>
    (s.failures key + 1, { s with failures := assign s.failures key (s.failures key + 1) })
  | .clearFailures key => ((), { s with failures := assign s.failures key 0 })
  | .lock key => (!s.locked key, { s with locked := assign s.locked key true })
  | .unlock key => ((), { s with locked := assign s.locked key false })
  | .isLocked key => (s.locked key, s)
  | .advanceVersion key =>
    (s.version key + 1, { s with version := assign s.version key (s.version key + 1) })
  | .version key => (s.version key, s)
  | .requeue job priority => ((), { s with requeued := s.requeued ++ [{ job with priority }] })
  | .takeRequeued => (s.requeued, { s with requeued := [] })
  | .countTimedOut => ((), { s with timedOut := s.timedOut + 1 })
  | .timedOut => (s.timedOut, s)
  | .countWrongChecksum => ((), { s with wrongChecksums := s.wrongChecksums + 1 })
  | .wrongChecksums => (s.wrongChecksums, s)

def after (s : Store) (op : Operation) : Store := (s.perform op).2

def afterAll (s : Store) (ops : List Operation) : Store := ops.foldl after s

@[simp] theorem afterAll_nil (s : Store) : s.afterAll [] = s := rfl

@[simp] theorem afterAll_cons (s : Store) (op : Operation) (ops : List Operation) :
    s.afterAll (op :: ops) = (s.after op).afterAll ops := rfl

theorem afterAll_append (s : Store) (xs ys : List Operation) :
    s.afterAll (xs ++ ys) = (s.afterAll xs).afterAll ys :=
  List.foldl_append

end Store
end FollowerSync.Maintenance
