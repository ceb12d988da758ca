set_option autoImplicit false

namespace FollowerSync.Cluster

/-- Whether the plan names `leader` first and `server` after it. -/
def isPlannedFollower (planned : List String) (leader server : String) : Bool :=
  match planned with
  | [] => false
  | first :: followers => first = leader && followers.contains server

inductive Readiness where
  | proceed
  | wait
  | cancel (reason : String)
  deriving DecidableEq, Repr

/-- What to do, given who is planned and who serves. A server that already follows is done,
unless it is told to synchronize again. -/
def assess (planned current : List String) (leader server : String) (forced : Bool) : Readiness :=
  if !planned.contains server || planned.head? ≠ some leader then .cancel "cancelled"
  else
    match current with
    | [] => .wait
    | first :: _ =>
      if first ≠ leader then .cancel "Planned leader has not taken over leadership"
      else if !current.contains server || forced then .proceed
      else .cancel "already done"

theorem isPlannedFollower_iff {planned : List String} {leader server : String} :
    isPlannedFollower planned leader server ↔
      ∃ followers, planned = leader :: followers ∧ server ∈ followers := by
  cases planned with
  | nil => simp [isPlannedFollower]
  | cons first followers =>
    simp only [isPlannedFollower, Bool.and_eq_true, decide_eq_true_eq, List.contains_iff_mem,
      List.cons.injEq]
    constructor
    · rintro ⟨rfl, h⟩
      exact ⟨followers, ⟨rfl, rfl⟩, h⟩
    · rintro ⟨_, ⟨rfl, rfl⟩, h⟩
      exact ⟨rfl, h⟩

end FollowerSync.Cluster
