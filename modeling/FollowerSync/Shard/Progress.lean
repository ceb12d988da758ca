set_option autoImplicit false

namespace FollowerSync

abbrev Tick := UInt64

/-- The leader's number for one registration of a follower; zero when it hands out none. -/
structure FollowingTerm where
  value : UInt64
  deriving DecidableEq, Repr, Inhabited

namespace FollowingTerm

def isSet (t : FollowingTerm) : Bool := t.value ≠ 0

/-- The identifier that operations of this leader carry during this term. -/
def leaderId (t : FollowingTerm) (leader : String) : String :=
  if t.isSet then leader ++ "_" ++ toString t.value.toNat else leader

theorem leaderId_of_isSet {t : FollowingTerm} (h : t.isSet = true) (leader : String) :
    t.leaderId leader = leader ++ "_" ++ toString t.value.toNat := by
  simp [leaderId, h]

theorem leaderId_of_not_isSet {t : FollowingTerm} (h : t.isSet = false) (leader : String) :
    t.leaderId leader = leader := by
  simp [leaderId, h]

end FollowingTerm

structure Progress where
  lastLogTick : Tick := 0
  tickReached : Tick := 0
  /-- Where following may stop while writes are held up, if the leader said so. -/
  upperBound : Option Tick := none
  deriving DecidableEq, Repr, Inhabited

namespace Progress

def advance (p : Progress) (reached : Tick) : Progress :=
  { p with
    tickReached := max p.tickReached reached
    lastLogTick := max p.lastLogTick reached }

end Progress
end FollowerSync
