import FollowerSync.Attempt.Calls

/-!
# Futures

A future is polled until it is over, and between two polls its task is suspended until one of its
wakers goes off. Futures are put together from others without anything being known of the task.
-/

set_option autoImplicit false

namespace FollowerSync.Attempt

structure Future (α : Type) where
  /-- What the future yields if it is over. It was polled so many times before. -/
  poll : Nat → Act (Option α)
  wakers : List Waker

namespace Future
variable {α β : Type}

def loading (version : UInt64) : Future (Except Fault Unit) where
  poll polls := ask (.awaitVersion version polls)
  wakers := [.loading]

def stopping : Future Unit where
  poll _ := do if ← ask .stopping then return some () else return none
  wakers := [.stopping]

/-- Yields nothing if the other future is not over by a moment. -/
def before (deadline : Instant) (f : Future α) : Future (Option α) where
  poll polls := do
    match ← f.poll polls with
    | some a => return some (some a)
    | none => if deadline ≤ (← ask .now) then return some none else return none
  wakers := .due deadline :: f.wakers

def timeout (limit : Duration) (f : Future α) : Act (Future (Option α)) := do
  return f.before ((← ask .now) + limit.nanos)

def orElse (first second : Act (Option α)) : Act (Option α) := do
  match ← first with
  | some a => return some a
  | none => second

/-- Is over as soon as one of two futures is. Which of them is polled first is left to chance. -/
def either (f : Future α) (g : Future β) : Future (α ⊕ β) where
  poll polls := do
    let left : Act (Option (α ⊕ β)) := do return (← f.poll polls).map .inl
    let right : Act (Option (α ⊕ β)) := do return (← g.poll polls).map .inr
    if ← ask .draw then orElse left right else orElse right left
  wakers := f.wakers ++ g.wakers

/-- Polls a future until it is over. The fuel bounds the number of polls. -/
def await (f : Future α) (polls : Nat) : Nat → Act (Option α)
  | 0 => return none
  | fuel + 1 => do
    match ← f.poll polls with
    | some a => return some a
    | none =>
      ask (.suspend f.wakers)
      f.await (polls + 1) fuel

end Future
end FollowerSync.Attempt
