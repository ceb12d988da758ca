import Mathlib.Data.List.Basic
import Mathlib.Data.List.Induction
import FollowerSync.Proofs.Identities
import FollowerSync.Proofs.Resubmission

/-!
# Terms tell the operations of a leader apart

What a leader sends during a term carries its name with the term behind it, and its bare name where
it has none. From such an identifier the term can be read back, so that no two terms of one leader
share it. Hence a follower that is told a new identifier accepts nothing that belongs to any other
term of that leader, from however many attempts the terms come.
-/

set_option autoImplicit false

namespace FollowerSync.FollowingTerm
variable {t u : FollowingTerm} {leader : String}

def numberIn (leader id : String) : Nat :=
  Nat.ofDigitChars 10 (id.toList.drop (leader.length + 1)) 0

theorem toList_leaderId_of_isSet (numbered : t.isSet = true) (leader : String) :
    (t.leaderId leader).toList = leader.toList ++ '_' :: Nat.toDigits 10 t.value.toNat := by
  rw [leaderId_of_isSet numbered, Nat.toString_eq_ofList_toDigits]
  simp

theorem numberIn_leaderId (t : FollowingTerm) (leader : String) :
    numberIn leader (t.leaderId leader) = t.value.toNat := by
  unfold numberIn
  rw [← String.length_toList, ← List.drop_drop]
  cases numbered : t.isSet with
  | true =>
    rw [toList_leaderId_of_isSet numbered, List.drop_left]
    exact Nat.ofDigitChars_ten_toDigits
  | false =>
    have zero : t.value = 0 := by simpa [isSet] using numbered
    rw [leaderId_of_not_isSet numbered, List.drop_length, zero]
    rfl

theorem leaderId_inj : t.leaderId leader = u.leaderId leader ↔ t = u := by
  refine ⟨fun same => ?_, fun same => same ▸ rfl⟩
  have numbers := congrArg (numberIn leader) same
  rw [numberIn_leaderId, numberIn_leaderId] at numbers
  exact congrArg FollowingTerm.mk (UInt64.toNat_inj.mp numbers)

/-- Names of different leaders may meet. -/
example : (⟨3⟩ : FollowingTerm).leaderId "L" = (⟨0⟩ : FollowingTerm).leaderId "L_3" := by decide

end FollowerSync.FollowingTerm

namespace FollowerSync.Attempt
open Leader

/-- The two sides of a follower that apply what a leader sends, each by an identifier of its own. -/
inductive Side where
  | replica
  | syncer
  deriving DecidableEq

/-- The identifier by which this side goes from the event on. A replica that refuses another one
stays with its own. -/
def Side.told : Side → Event surroundings → Option String
  | .replica, ⟨.setLeader id, .ok _⟩ => some id
  | .syncer, ⟨.openTailingSyncer _ _ id, _⟩ | .syncer, ⟨.followLeader id, _⟩ => some id
  | _, _ => none

def Side.identifiers (side : Side) (h : History surroundings) : List String := marks side.told h

def Naming.term (n : Naming) : FollowingTerm := n.held.elim ⟨0⟩ LockGrant.term

/-- For each identifier that this side is told, the term that is current at that moment. -/
def Side.terms (side : Side) : Naming → History surroundings → List FollowingTerm
  | _, [] => []
  | n, e :: h => ((side.told e).map fun _ => n.term).toList ++ side.terms (n.after e) h

section
variable {setting : Setting} {job : Job} {side : Side} {h es : History surroundings}
  {e : Event surroundings} {q : Act Report} {id : String}

theorem Naming.identity_eq (n : Naming) (leader : String) :
    n.identity leader = n.term.leaderId leader := by
  unfold Naming.identity Naming.term
  cases n.held with
  | none => rfl
  | some grant => exact (leaderId_eq_identifier leader grant).symm

theorem Side.terms_append (n : Naming) (h later : History surroundings) :
    side.terms n (h ++ later) = side.terms n h ++ side.terms (h.foldl Naming.after n) later := by
  induction h generalizing n with
  | nil => rfl
  | cons e h ih =>
    rw [List.cons_append, Side.terms, Side.terms, ih, List.append_assoc]
    rfl

theorem told_eq (law : NamingLaw job h e.call) (told : side.told e = some id) :
    id = (naming h).term.leaderId job.leader := by
  rw [← Naming.identity_eq]
  unfold Side.told at told
  split at told <;> cases told <;> exact law

theorem identifiers_of_steps (steps : Steps (run setting job) es q) :
    side.identifiers es = (side.terms {} es).map fun t => t.leaderId job.leader := by
  -- From the end: which term an identifier belongs to is decided by what was called before it.
  induction es using List.reverseRecOn generalizing q with
  | nil => rfl
  | append_singleton es e ih =>
    obtain ⟨next, earlier⟩ := steps.before
    have law : NamingLaw job es e.call := (run_keeps_namingLaw setting job).allowed earlier
    have last : side.identifiers [e] =
        (side.terms (naming es) [e]).map fun t => t.leaderId job.leader := by
      cases told : side.told e with
      | none => simp [Side.identifiers, Side.terms, marks, told]
      | some id => simp [Side.identifiers, Side.terms, marks, told, told_eq law told]
    rw [Side.terms_append, List.map_append, ← ih earlier]
    exact (marks_append es [e]).trans (congrArg (_ ++ ·) last)

end

/-- What a leader sends during one of its terms. -/
structure Stream where
  leader : String
  term : FollowingTerm
  deriving DecidableEq

def Stream.identifier (s : Stream) : String := s.term.leaderId s.leader

namespace Attempted

def streams (a : Attempted) (side : Side) : List Stream :=
  (side.terms {} a.calls).map (Stream.mk a.job.leader)

theorem identifiers_eq (a : Attempted) (side : Side) :
    side.identifiers a.calls = (a.streams side).map Stream.identifier := by
  rw [identifiers_of_steps a.steps, streams, List.map_map]
  rfl

end Attempted

section
variable (attempts : List Attempted) (side : Side)

/-- The identifier that operations have to carry for this side to accept them, after attempts of
which each may have been broken off. -/
def accepted : Option String :=
  (attempts.flatMap fun a => side.identifiers a.calls).getLast?

/-- The stream that superseded all others on this side. -/
def inForce : Option Stream := (attempts.flatMap fun a => a.streams side).getLast?

theorem accepted_eq : accepted attempts side = (inForce attempts side).map Stream.identifier := by
  unfold accepted inForce
  rw [← List.getLast?_map, List.map_flatMap]
  refine congrArg List.getLast? (List.flatMap_congr fun a _ => ?_)
  exact a.identifiers_eq side

end

/-- Different terms of a leader have different identifiers. After any attempts, whichever leaders
they were to follow, each side of the follower accepts of the leader in force what was sent during
the term in force and during no other. -/
theorem terms_tell_operations_apart :
    (∀ (leader : String) (t u : FollowingTerm), t ≠ u → t.leaderId leader ≠ u.leaderId leader) ∧
    ∀ (attempts : List Attempted) (side : Side) (stream : Stream),
      inForce attempts side = some stream → ∀ t : FollowingTerm,
        accepted attempts side = some (t.leaderId stream.leader) ↔ t = stream.term := by
  refine ⟨fun leader t u other same => other (FollowingTerm.leaderId_inj.mp same), ?_⟩
  intro attempts side stream current t
  rw [accepted_eq, current, Option.map_some, Option.some.injEq]
  exact FollowingTerm.leaderId_inj.trans eq_comm

def fourthTerm : History surroundings → (c : Call) → Option c.Reply
  | _, .leader _ (.acquireLock _) _ => some (.ok (⟨some 4, some 50⟩ : LockGrant))
  | _, _ => none

theorem fourthTerm_supersedes_third :
    (⟨3⟩ : FollowingTerm).leaderId "L" ≠ (⟨4⟩ : FollowingTerm).leaderId "L" ∧
    ∃ attempts : List Attempted, ∀ side : Side,
      (attempts.flatMap fun a => a.streams side) =
        [⟨"L", ⟨0⟩⟩, ⟨"L", ⟨3⟩⟩, ⟨"L", ⟨0⟩⟩, ⟨"L", ⟨4⟩⟩] ∧
      inForce attempts side = some ⟨"L", ⟨4⟩⟩ ∧ accepted attempts side = some "L_4" ∧
      accepted attempts side ≠ some "L_3" ∧ accepted attempts side ≠ some "L" := by
  have ends : (troubledRun fourthTerm).2.isSome = true := by decide +kernel
  obtain ⟨report, ended⟩ := Option.isSome_iff_exists.mp ends
  let first : Attempted := ⟨calmSetting, calmJob, calmRun.1, _, calmRun_runs⟩
  let second : Attempted :=
    ⟨calmSetting, calmJob, (troubledRun fourthTerm).1, _, troubledRun_runs _ ended⟩
  obtain ⟨apart, accepts⟩ := terms_tell_operations_apart
  refine ⟨apart "L" ⟨3⟩ ⟨4⟩ (by decide), [first, second], fun side => ?_⟩
  have third : side.terms {} calmRun.1 = [⟨0⟩, ⟨3⟩] := by cases side <;> decide +kernel
  have fourth : side.terms {} (troubledRun fourthTerm).1 = [⟨0⟩, ⟨4⟩] := by
    cases side <;> decide +kernel
  have streams : ([first, second].flatMap fun a => a.streams side) =
      [⟨"L", ⟨0⟩⟩, ⟨"L", ⟨3⟩⟩, ⟨"L", ⟨0⟩⟩, ⟨"L", ⟨4⟩⟩] := by
    simp [first, second, Attempted.streams, third, fourth, calmJob]
  have current : inForce [first, second] side = some ⟨"L", ⟨4⟩⟩ := by
    unfold inForce
    rw [streams]
    rfl
  have accepts := accepts [first, second] side ⟨"L", ⟨4⟩⟩ current
  have refused (t : FollowingTerm) (superseded : t ≠ ⟨4⟩) :
      accepted [first, second] side ≠ some (t.leaderId "L") :=
    fun same => superseded ((accepts t).mp same)
  exact ⟨streams, current, (accepts ⟨4⟩).mpr rfl, refused ⟨3⟩ (by decide), refused ⟨0⟩ (by decide)⟩

end FollowerSync.Attempt
