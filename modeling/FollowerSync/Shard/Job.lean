import FollowerSync.Fault

set_option autoImplicit false

namespace FollowerSync

structure ShardKey where
  database : String
  shard : String
  deriving DecidableEq, Repr

structure ShardPlace where
  database : String
  plan : String
  shard : String
  deriving DecidableEq, Repr

inductive Priority where
  | normal
  | slow
  deriving DecidableEq, Repr, Inhabited

namespace Priority

def name : Priority → String
  | normal => "Normal"
  | slow => "Slow"

def ofName? (s : String) : Option Priority := [normal, slow].find? (·.name = s)

end Priority

structure Job where
  database : String
  shard : String
  planId : String
  leader : String
  forcedResync : Bool := false
  /-- The leader supports comparison by revision, so the attempt may be given a deadline. -/
  syncByRevision : Bool := false
  priority : Priority := .normal
  deriving DecidableEq, Repr

namespace Job

def key (job : Job) : ShardKey := ⟨job.database, job.shard⟩

def place (job : Job) : ShardPlace := ⟨job.database, job.planId, job.shard⟩

def complaints (job : Job) : List String :=
  (if job.database = "" ∨ job.shard = "" then ["database and shard must be specified."] else [])
  ++ (if job.planId = "" then ["collection must be specified."] else [])
  ++ (if job.leader = "" then ["leader must be specified and must be non-empty."] else [])

def validate (job : Job) : Except Fault Unit :=
  match job.complaints with
  | [] => .ok ()
  | reasons => .error (.internal (" ".intercalate reasons))

theorem validate_eq_ok_iff (job : Job) :
    job.validate = .ok () ↔
      job.database ≠ "" ∧ job.shard ≠ "" ∧ job.planId ≠ "" ∧ job.leader ≠ "" := by
  by_cases d : job.database = "" <;> by_cases s : job.shard = "" <;>
    by_cases p : job.planId = "" <;> by_cases l : job.leader = "" <;>
    simp [validate, complaints, d, s, p, l]

def clientId (job : Job) : String := job.database ++ job.planId ++ job.shard ++ job.leader

def clientInfo (job : Job) (server : String) : String :=
  "follower " ++ server ++ " of shard " ++ job.database ++ "/" ++ job.shard ++
    " of collection " ++ job.database ++ "/" ++ job.planId

end Job
end FollowerSync
