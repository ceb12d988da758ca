/-!
# Watched values

A channel holds the value sent last, for whoever watches it. A wait looks whether the value has a
property; if it has not, the wait sleeps until another value is sent. Of a channel no more is known
than its laws say.
-/

set_option autoImplicit false

namespace FollowerSync.Cluster

/-- Nobody is left who could send a value. -/
structure Closed

structure Watch (α : Type) where
  Channel : Type
  Wait : Type
  create : α → Channel
  sendReplace : Channel → α → Channel
  borrow : Channel → α
  /-- Subscribes to a channel; the wait does nothing until it is polled. -/
  waitFor : Channel → (α → Bool) → Wait
  poll : Channel → Wait → Option (Except Closed α) × Wait
  /-- Whether the task of a wait has been woken since the wait was polled. -/
  wakes : Channel → Wait → Bool

namespace Watch
variable {α : Type}

/-- How a wait that is not over stands: it was not polled yet, it was polled since the last value
was sent, or a value was sent since it was polled. -/
inductive Standing where
  | fresh
  | idle
  | notified
  deriving DecidableEq

def Standing.sent : Standing → Standing
  | fresh => fresh
  | idle | notified => notified

/-- A wait for a value with the property `p`, whatever has been sent since it began and however
often it was polled. -/
inductive Waiting (W : Watch α) (p : α → Bool) : Standing → W.Channel → W.Wait → Prop
  | begun (c : W.Channel) : Waiting W p .fresh c (W.waitFor c p)
  | sent {s : Standing} {c : W.Channel} {x : W.Wait} (a : α) :
      Waiting W p s c x → Waiting W p s.sent (W.sendReplace c a) x
  | polled {s : Standing} {c : W.Channel} {x later : W.Wait} :
      Waiting W p s c x → W.poll c x = (none, later) → Waiting W p .idle c later

/-- What is known of channels whose sender is there. -/
structure Lawful (W : Watch α) : Prop where
  borrow_create (a : α) : W.borrow (W.create a) = a
  borrow_sendReplace (c : W.Channel) (a : α) : W.borrow (W.sendReplace c a) = a
  /-- Before a wait sleeps, it looks at the current value. -/
  first {p : α → Bool} {c : W.Channel} {x : W.Wait} : W.Waiting p .fresh c x →
    (W.poll c x).1 = if p (W.borrow c) then some (.ok (W.borrow c)) else none
  /-- Once something is sent, a wait looks at the most recent value when it is polled. -/
  again {p : α → Bool} {c : W.Channel} {x : W.Wait} : W.Waiting p .notified c x →
    (W.poll c x).1 = if p (W.borrow c) then some (.ok (W.borrow c)) else none
  /-- As long as nothing is sent, a wait goes on. -/
  goesOn {p : α → Bool} {c : W.Channel} {x : W.Wait} : W.Waiting p .idle c x →
    (W.poll c x).1 = none
  /-- Who waits is notified of every value that is sent. -/
  notifies {p : α → Bool} {c : W.Channel} {x : W.Wait} : W.Waiting p .notified c x →
    W.wakes c x = true

/-!
## Counted values

A channel may count the values it was sent, and a wait remember the count at which it last looked.
-/

structure Counted (α : Type) where
  value : α
  sends : Nat := 0

structure Look (α : Type) where
  wanted : α → Bool
  seen : Option Nat := none

def counted (α : Type) : Watch α where
  Channel := Counted α
  Wait := Look α
  create value := { value }
  sendReplace c value := { value, sends := c.sends + 1 }
  borrow := Counted.value
  waitFor _ wanted := { wanted }
  poll c x :=
    if x.seen = some c.sends then (none, x)
    else (if x.wanted c.value then some (.ok c.value) else none, { x with seen := some c.sends })
  wakes c x := x.seen.any (· ≠ c.sends)

def Look.Stands (x : Look α) (c : Counted α) : Standing → Prop
  | .fresh => x.seen = none
  | .idle => x.seen = some c.sends
  | .notified => ∃ n < c.sends, x.seen = some n

theorem counted_stands {p : α → Bool} {s : Standing} {c : (counted α).Channel}
    {x : (counted α).Wait} (waiting : (counted α).Waiting p s c x) :
    Look.wanted x = p ∧ Look.Stands x c s := by
  induction waiting with
  | begun c => exact ⟨rfl, rfl⟩
  | @sent s c x a _ ih =>
    refine ⟨ih.1, ?_⟩
    cases s with
    | fresh => exact ih.2
    | idle => exact ⟨c.sends, Nat.lt_succ_self _, ih.2⟩
    | notified =>
      obtain ⟨n, before, seen⟩ := ih.2
      exact ⟨n, Nat.lt_succ_of_lt before, seen⟩
  | @polled s c x later _ polled ih =>
    by_cases seen : Look.seen x = some (Counted.sends c)
    · obtain rfl : x = later := congrArg Prod.snd ((if_pos seen).symm.trans polled)
      exact ⟨ih.1, seen⟩
    · obtain rfl : { x with seen := some (Counted.sends c) } = later :=
        congrArg Prod.snd ((if_neg seen).symm.trans polled)
      exact ⟨ih.1, rfl⟩

theorem counted_poll {p : α → Bool} {s : Standing} {c : (counted α).Channel}
    {x : (counted α).Wait} (waiting : (counted α).Waiting p s c x) (unseen : s ≠ .idle) :
    ((counted α).poll c x).1 =
      if p ((counted α).borrow c) then some (.ok ((counted α).borrow c)) else none := by
  obtain ⟨rfl, stands⟩ := counted_stands waiting
  have looks : Look.seen x ≠ some (Counted.sends c) := by
    cases s with
    | fresh => simp [show Look.seen x = none from stands]
    | idle => exact absurd rfl unseen
    | notified =>
      obtain ⟨n, before, seen⟩ := stands
      simpa [seen] using Nat.ne_of_lt before
  exact congrArg Prod.fst (if_neg looks)

theorem counted_lawful (α : Type) : (counted α).Lawful where
  borrow_create _ := rfl
  borrow_sendReplace _ _ := rfl
  first waiting := counted_poll waiting nofun
  again waiting := counted_poll waiting nofun
  goesOn waiting := congrArg Prod.fst (if_pos (counted_stands waiting).2)
  notifies waiting := by
    obtain ⟨-, n, before, seen⟩ := counted_stands waiting
    simpa [counted, seen] using Nat.ne_of_lt before

end Watch
end FollowerSync.Cluster
