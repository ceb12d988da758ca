import FollowerSync.Proofs.Footprints

set_option autoImplicit false

namespace FollowerSync.Attempt
open Cluster

inductive Poll where
  | stopping
  | planUnread (fault : Fault)
  | currentUnread (plan : List String) (fault : Fault)
  | seen (plan current : List String)

namespace Poll

def events (job : Job) : Poll → History surroundings
  | stopping => [⟨.stopping, true⟩]
  | planUnread fault => [⟨.stopping, false⟩, ⟨.plannedServers job.place, .error fault⟩]
  | currentUnread plan fault =>
    [⟨.stopping, false⟩, ⟨.plannedServers job.place, .ok plan⟩,
      ⟨.currentServers job.place, .error fault⟩]
  | seen plan current =>
    [⟨.stopping, false⟩, ⟨.plannedServers job.place, .ok plan⟩,
      ⟨.currentServers job.place, .ok current⟩]

section
variable (setting : Setting) (job : Job)

def OnPlan (plan : List String) : Prop :=
  plan.head? = some job.leader ∧ setting.server ∈ plan

def givenUp (reason : String) : Fault := .planChanged (reason ++ ", " ++ shardInfo job)

/-- The poll ends the wait with this result. -/
inductive Ends : Poll → Except Fault Unit → Prop
  | stopping : Ends .stopping (.error .shuttingDown)
  | planUnread (fault : Fault) : Ends (.planUnread fault) (.error (givenUp job "cancelled"))
  | currentUnread (plan : List String) (fault : Fault) :
      Ends (.currentUnread plan fault) (.error fault)
  | unplanned {plan current : List String} (unplanned : ¬OnPlan setting job plan) :
      Ends (.seen plan current) (.error (givenUp job "cancelled"))
  | misled {plan current : List String} {first : String} (planned : OnPlan setting job plan)
      (leads : current.head? = some first) (other : first ≠ job.leader) :
      Ends (.seen plan current)
        (.error (givenUp job "Planned leader has not taken over leadership"))
  | follows {plan current : List String} (planned : OnPlan setting job plan)
      (leads : current.head? = some job.leader) (follows : setting.server ∈ current)
      (unforced : job.forcedResync = false) :
      Ends (.seen plan current) (.error (givenUp job "already done"))
  | ready {plan current : List String} (planned : OnPlan setting job plan)
      (leads : current.head? = some job.leader)
      (wanted : setting.server ∉ current ∨ job.forcedResync = true) :
      Ends (.seen plan current) (.ok ())

/-- The poll asks for another one: all is as planned, but nobody serves yet. -/
inductive Waits : Poll → Prop
  | unserved {plan : List String} (planned : OnPlan setting job plan) : Waits (.seen plan [])

def Means (p : Poll) : Readiness → Prop
  | .proceed => p.Ends setting job (.ok ())
  | .cancel reason => p.Ends setting job (.error (givenUp job reason))
  | .wait => p.Waits setting job

end

variable {setting : Setting} {job : Job} {p : Poll} {r r' : Except Fault Unit}

theorem Ends.unique (ends : p.Ends setting job r) (ends' : p.Ends setting job r') : r = r' := by
  cases ends <;> cases ends' <;> simp_all

theorem Waits.not_ends (waits : p.Waits setting job) : ¬p.Ends setting job r := by
  obtain ⟨planned⟩ := waits
  intro ends
  cases ends <;> simp_all

theorem ends_planChanged {plan current : List String}
    (unfit : ¬OnPlan setting job plan ∨
      (∃ first, current.head? = some first ∧ first ≠ job.leader) ∨
      (setting.server ∈ current ∧ job.forcedResync = false)) :
    ∃ reason, (seen plan current).Ends setting job (.error (.planChanged reason)) := by
  by_cases planned : OnPlan setting job plan
  · cases leads : current.head? with
    | none =>
      obtain rfl := List.head?_eq_none_iff.mp leads
      simp [planned] at unfit
    | some first =>
      by_cases other : first = job.leader
      · subst other
        obtain ⟨follows, unforced⟩ : setting.server ∈ current ∧ job.forcedResync = false := by
          simpa [planned, leads] using unfit
        exact ⟨_, .follows planned leads follows unforced⟩
      · exact ⟨_, .misled planned leads other⟩
  · exact ⟨_, .unplanned planned⟩

theorem means_assess (setting : Setting) (job : Job) (plan current : List String) :
    (seen plan current).Means setting job
      (assess plan current job.leader setting.server job.forcedResync) := by
  unfold assess
  split
  · rename_i absent
    refine .unplanned fun planned => ?_
    simp [planned.1, planned.2] at absent
  · rename_i present
    have planned : OnPlan setting job plan := by simpa [OnPlan, and_comm] using present
    cases current with
    | nil => exact .unserved planned
    | cons first followers =>
      dsimp only
      split
      · rename_i other
        exact .misled planned rfl other
      · rename_i same
        obtain rfl := not_not.mp same
        split
        · rename_i wanted
          exact .ready planned rfl (by simpa using wanted)
        · rename_i unwanted
          obtain ⟨present, unforced⟩ := Bool.or_eq_false_iff.mp (Bool.eq_false_iff.mpr unwanted)
          exact .follows planned rfl (List.contains_iff_mem.mp (Bool.not_inj present)) unforced

theorem waits_or_ends : p.Waits setting job ∨ ∃ r, p.Ends setting job r := by
  cases p with
  | stopping => exact .inr ⟨_, .stopping⟩
  | planUnread fault => exact .inr ⟨_, .planUnread fault⟩
  | currentUnread plan fault => exact .inr ⟨_, .currentUnread plan fault⟩
  | seen plan current =>
    have means := means_assess setting job plan current
    cases assessed : assess plan current job.leader setting.server job.forcedResync with
    | proceed =>
      rw [assessed] at means
      exact .inr ⟨_, means⟩
    | cancel reason =>
      rw [assessed] at means
      exact .inr ⟨_, means⟩
    | wait =>
      rw [assessed] at means
      exact .inl means

theorem Ends.runs (ends : p.Ends setting job r) (looks : Nat) :
    Runs (waitForLeader setting job (looks + 1)) (p.events job) r := by
  cases p with
  | stopping =>
    cases ends
    exact .call (.refl _)
  | planUnread fault =>
    cases ends
    exact .call (.call (.refl _))
  | currentUnread plan fault =>
    cases ends
    exact .call (.call (.call (.refl _)))
  | seen plan current =>
    refine .call (.call (.call ?_))
    have means := means_assess setting job plan current
    simp only [Program.pure_eq, Program.bind_done]
    cases assessed : assess plan current job.leader setting.server job.forcedResync with
    | proceed =>
      rw [assessed] at means
      obtain rfl := ends.unique means
      exact .refl _
    | cancel reason =>
      rw [assessed] at means
      obtain rfl := ends.unique means
      exact .refl _
    | wait =>
      rw [assessed] at means
      exact (Waits.not_ends means ends).elim

theorem Waits.steps (waits : p.Waits setting job) (looks : Nat) :
    Steps (waitForLeader setting job (looks + 1)) (p.events job)
      (.call (.sleep setting.settings.readinessPoll) fun _ => waitForLeader setting job looks) := by
  obtain @⟨plan, planned⟩ := waits
  refine .call (.call (.call ?_))
  have means := means_assess setting job plan []
  simp only [Program.pure_eq, Program.bind_done]
  cases assessed : assess plan [] job.leader setting.server job.forcedResync with
  | wait => exact .refl _
  | _ =>
    rw [assessed] at means
    exact ((Waits.unserved planned).not_ends means).elim

end Poll

section
variable (setting : Setting) (job : Job)

def pausedPolls (polls : List Poll) : History surroundings :=
  polls.flatMap fun p => p.events job ++ [⟨.sleep setting.settings.readinessPoll, ()⟩]

/-- The calls of a wait, each with what was called and answered before it. -/
inductive Polling (looks : Nat) : History surroundings → Call → Prop
  | begins {waits : List Poll} (waited : ∀ p ∈ waits, p.Waits setting job)
      (left : waits.length < looks) : Polling looks (pausedPolls setting job waits) .stopping
  | readsPlan {waits : List Poll} (waited : ∀ p ∈ waits, p.Waits setting job)
      (left : waits.length < looks) :
      Polling looks (pausedPolls setting job waits ++ [⟨.stopping, false⟩])
        (.plannedServers job.place)
  | readsCurrent {waits : List Poll} (plan : List String)
      (waited : ∀ p ∈ waits, p.Waits setting job) (left : waits.length < looks) :
      Polling looks (pausedPolls setting job waits ++
        [⟨.stopping, false⟩, ⟨.plannedServers job.place, .ok plan⟩]) (.currentServers job.place)
  | pauses {waits : List Poll} {last : Poll} (waited : ∀ p ∈ waits, p.Waits setting job)
      (left : waits.length < looks) (waits' : last.Waits setting job) :
      Polling looks (pausedPolls setting job waits ++ last.events job)
        (.sleep setting.settings.readinessPoll)
  | exhausted {waits : List Poll} (waited : ∀ p ∈ waits, p.Waits setting job)
      (length_eq : waits.length = looks) :
      Polling looks (pausedPolls setting job waits) (.halt .outOfPatience)

/-- The first poll that does not ask for another one decides the wait. -/
def DecidedBy (looks : Nat) (r : Except Fault Unit) (h : History surroundings) : Prop :=
  ∃ waits last, waits.length < looks ∧ (∀ p ∈ waits, Poll.Waits setting job p) ∧
    Poll.Ends setting job last r ∧ h = pausedPolls setting job waits ++ last.events job

theorem pausedPolls_concat (polls : List Poll) (p : Poll) :
    pausedPolls setting job (polls ++ [p]) = pausedPolls setting job polls ++ p.events job ++
      [⟨.sleep setting.settings.readinessPoll, ()⟩] := by
  simp [pausedPolls]

variable {setting job}

theorem waitForLeader_polls (looks : Nat) (waits : List Poll)
    (waited : ∀ p ∈ waits, p.Waits setting job) :
    (waitForLeader setting job looks).Keeps (Polling setting job (waits.length + looks))
      (DecidedBy setting job (waits.length + looks)) (pausedPolls setting job waits) := by
  induction looks generalizing waits with
  | zero => exact ⟨.exhausted waited rfl, nofun⟩
  | succ looks ih =>
    have left : waits.length < waits.length + (looks + 1) := by omega
    have decided {last : Poll} {r : Except Fault Unit} (ends : last.Ends setting job r) :
        DecidedBy setting job (waits.length + (looks + 1)) r
          (pausedPolls setting job waits ++ last.events job) :=
      ⟨waits, last, left, waited, ends, rfl⟩
    simp only [waitForLeader, look, ask_eq, Program.bind_eq, Program.bind_call, Program.bind_done,
      Program.keeps_call, Program.keeps_ite, Program.pure_eq]
    refine ⟨.begins waited left, fun stopping => ⟨?stopping, ?looking⟩⟩
    case stopping =>
      rintro rfl
      exact decided .stopping
    case looking =>
      intro goesOn
      obtain rfl : stopping = false := by simpa using goesOn
      refine ⟨.readsPlan waited left, ?_⟩
      rintro (fault | plan)
      · simpa [Poll.events, Poll.givenUp] using decided (.planUnread fault)
      refine ⟨by simpa using Polling.readsCurrent plan waited left, ?_⟩
      rintro (fault | current)
      · simpa [Poll.events] using decided (.currentUnread plan fault)
      have means := Poll.means_assess setting job plan current
      have history : pausedPolls setting job waits ++ [⟨.stopping, false⟩] ++
          [⟨.plannedServers job.place, .ok plan⟩] ++ [⟨.currentServers job.place, .ok current⟩] =
          pausedPolls setting job waits ++ Poll.events job (.seen plan current) := by
        simp [Poll.events]
      simp only [Program.bind_done, history]
      cases assessed : assess plan current job.leader setting.server job.forcedResync with
      | proceed =>
        rw [assessed] at means
        exact decided means
      | cancel reason =>
        rw [assessed] at means
        exact decided means
      | wait =>
        rw [assessed] at means
        refine ⟨.pauses waited left means, fun _ => ?_⟩
        have next := ih _ (List.forall_mem_append.mpr ⟨waited, List.forall_mem_singleton.mpr means⟩)
        rw [pausedPolls_concat, List.length_append, List.length_singleton, Nat.add_assoc,
          Nat.add_comm 1] at next
        exact next

theorem runs_waitForLeader {looks : Nat} {waits : List Poll} {last : Poll} {r : Except Fault Unit}
    (waited : ∀ p ∈ waits, p.Waits setting job) (left : waits.length < looks)
    (ends : last.Ends setting job r) :
    Runs (waitForLeader setting job looks)
      (pausedPolls setting job waits ++ last.events job) r := by
  induction waits generalizing looks with
  | nil =>
    obtain ⟨looks, rfl⟩ := Nat.exists_eq_add_one.mpr left
    exact ends.runs looks
  | cons first waits ih =>
    obtain ⟨looks, rfl⟩ := Nat.exists_eq_add_one.mpr (Nat.zero_lt_of_lt left)
    obtain ⟨first, waited⟩ := List.forall_mem_cons.mp waited
    have rest := ih waited (Nat.lt_of_succ_lt_succ left)
    have runs : Runs _ _ r := (first.steps looks).append (.call (r := ()) rest)
    simpa [pausedPolls] using runs

theorem runs_waitForLeader_iff {looks : Nat} {es : History surroundings} {r : Except Fault Unit} :
    Runs (waitForLeader setting job looks) es r ↔ DecidedBy setting job looks r es := by
  constructor
  · intro runs
    simpa [pausedPolls] using (waitForLeader_polls looks [] (List.forall_mem_nil _)).ended runs
  · rintro ⟨waits, last, left, waited, ends, rfl⟩
    exact runs_waitForLeader waited left ends

theorem polling_of_steps {looks : Nat} {es : History surroundings} {c : Call}
    {next : c.Reply → Act (Except Fault Unit)}
    (steps : Steps (waitForLeader setting job looks) es (.call c next)) :
    Polling setting job looks es c := by
  simpa [pausedPolls] using (waitForLeader_polls looks [] (List.forall_mem_nil _)).allowed steps

end

/-!
## The leader is left alone until then
-/

section
variable (setting : Setting) (job : Job)

def Call.SparesLeader : Call → Prop
  | .leader .. => False
  | _ => True

def Awaited (h : History surroundings) : Prop :=
  ∃ before polls after, h = before ++ polls ++ after ∧
    Runs (waitForLeader setting job setting.patience) polls (.ok ())

/-- A leader is called only when it was waited for. -/
def AwaitedLaw (h : History surroundings) : Call → Prop
  | .leader .. => Awaited setting job h
  | _ => True

variable {setting job}

theorem Awaited.append {h : History surroundings} (awaited : Awaited setting job h)
    (later : History surroundings) : Awaited setting job (h ++ later) := by
  obtain ⟨before, polls, after, rfl, runs⟩ := awaited
  exact ⟨before, polls, after ++ later, by simp, runs⟩

theorem awaited_stable :
    Stage.Stable (AwaitedLaw setting job) (fun _ => True) fun _ => Awaited setting job where
  allowed := by
    intro _ h c awaited _
    cases c with
    | leader => exact awaited
    | _ => trivial
  kept := fun _ _ _ _ awaited _ => awaited.append _

theorem sparesLeader_keeps {α : Type} {p : Act α} {h : History surroundings}
    (u : p.Uses Call.SparesLeader) :
    p.Keeps (AwaitedLaw setting job) (fun a h' => ∃ es, h' = h ++ es ∧ Runs p es a) h := by
  refine u.keeps_runs fun h c spares => ?_
  cases c with
  | leader => cases spares
  | _ => trivial

variable (setting job)

theorem standBy_awaits (j : Journal) (h : History surroundings) :
    (standBy setting job).Keeps (AwaitedLaw setting job) (fun _ _ => Awaited setting job)
      (fun _ _ _ => True) j h := by
  have delays : (delayAfterFailures setting job).Uses Call.SparesLeader :=
    (delayAfterFailures_delays setting job).mono fun c delays => by cases c <;> trivial
  have scouts : (waitForLeader setting job setting.patience).Uses Call.SparesLeader :=
    (waitForLeader_scouts setting job _).mono fun c scouts => by cases c <;> trivial
  simp only [standBy, Stage.keeps_bind, Stage.keeps_enter, Stage.keeps_attempt]
  cases job.validate with
  | error fault => trivial
  | ok _ =>
    refine (sparesLeader_keeps delays).mono ?_
    rintro (fault | _) h -
    · trivial
    · refine (sparesLeader_keeps scouts).mono ?_
      rintro (fault | _) h' ⟨polls, rfl, runs⟩
      · trivial
      · exact ⟨h, polls, [], (List.append_nil _).symm, runs⟩

theorem run_keeps_awaitedLaw :
    (run setting job).Keeps (AwaitedLaw setting job) (fun _ _ => True) [] := by
  have closes (fault : Option Fault) : (close setting job fault).Uses Call.SparesLeader :=
    (close_uses setting job fault).mono fun c closes => by cases c <;> trivial
  have concludes {began : Instant} {fault : Option Fault} {j : Journal} {h : History surroundings} :
      Concludes (AwaitedLaw setting job) (fun _ _ => True) setting job began fault j h :=
    (sparesLeader_keeps (closes fault)).mono fun _ _ _ => ⟨trivial, fun _ => trivial⟩
  rw [keeps_run, work_eq]
  refine ⟨trivial, fun began => ?_⟩
  rw [Stage.keeps_bind]
  refine (standBy_awaits setting job {} _).mono (fun _ j h awaited => ?_) fun _ _ _ _ => concludes
  exact (Stage.Uses.preserves (fun j => Program.uses_anything _) awaited_stable j h awaited).mono
    (fun _ _ _ _ => concludes) fun _ _ _ _ => concludes

/-- A wait for the leader ends with what the first poll says that does not ask for another one, and
each poll either ends the wait with one result or asks for another one. Between two polls there is
one pause. A leader is not called before such a wait has ended well. -/
theorem waitForLeader_first_decision :
    (∀ looks es r, Runs (waitForLeader setting job looks) es r ↔
      ∃ waits last, waits.length < looks ∧ (∀ p ∈ waits, Poll.Waits setting job p) ∧
        Poll.Ends setting job last r ∧ es = pausedPolls setting job waits ++ last.events job) ∧
    (∀ p : Poll, Xor (p.Waits setting job) (∃! r, p.Ends setting job r)) ∧
    (∀ plan current, ¬Poll.OnPlan setting job plan ∨
        (∃ first, current.head? = some first ∧ first ≠ job.leader) ∨
        (setting.server ∈ current ∧ job.forcedResync = false) →
      ∃ reason, (Poll.seen plan current).Ends setting job (.error (.planChanged reason))) ∧
    (∀ looks es c next, Steps (waitForLeader setting job looks) es (.call c next) →
      Polling setting job looks es c) ∧
    ∀ es endpoint request limit next,
      Steps (run setting job) es (.call (.leader endpoint request limit) next) →
      ∃ before polls after, es = before ++ polls ++ after ∧
        Runs (waitForLeader setting job setting.patience) polls (.ok ()) := by
  refine ⟨fun _ _ _ => runs_waitForLeader_iff, fun p => ?apart, fun _ _ => Poll.ends_planChanged,
    fun _ _ _ _ => polling_of_steps, ?spared⟩
  case apart =>
    rcases p.waits_or_ends with waits | ⟨r, ends⟩
    · exact .inl ⟨waits, fun ⟨_, ends, _⟩ => waits.not_ends ends⟩
    · exact .inr ⟨⟨r, ends, fun _ ends' => ends'.unique ends⟩, fun waits => waits.not_ends ends⟩
  case spared =>
    intro es endpoint request limit next steps
    exact (run_keeps_awaitedLaw setting job).allowed steps

end

theorem calmJob_waits_once :
    let unserved := Poll.seen ["L", "F"] []
    let served := Poll.seen ["L", "F"] ["L"]
    let begun : History surroundings :=
      [⟨.now, (0 : Nat)⟩, ⟨.upkeep (.failures calmJob.key), (0 : Nat)⟩]
    let found : History surroundings := [⟨.lookupShard calmJob.key, .ok true⟩,
      ⟨.serverEndpoint "L", .ok "tcp://L"⟩]
    Runs (waitForLeader calmSetting calmJob 2)
      (pausedPolls calmSetting calmJob [unserved] ++ served.events calmJob) (.ok ()) ∧
    (∃ reason, (Poll.seen ["L", "F"] ["L", "F"]).Ends calmSetting calmJob
      (.error (.planChanged reason))) ∧
    Polling calmSetting calmJob 1 (unserved.events calmJob) (.sleep (.ofSecs 1)) ∧
    ∃ before polls after, begun ++ served.events calmJob ++ found = before ++ polls ++ after ∧
      Runs (waitForLeader calmSetting calmJob 1) polls (.ok ()) := by
  intro unserved served begun found
  have law := waitForLeader_first_decision calmSetting calmJob
  have planned : Poll.OnPlan calmSetting calmJob ["L", "F"] := ⟨rfl, by decide⟩
  have waits : Steps (waitForLeader calmSetting calmJob 1) (unserved.events calmJob)
      (.call (.sleep (.ofSecs 1)) _) := .call (.call (.call (.refl _)))
  have calls : Steps (run calmSetting calmJob) (begun ++ served.events calmJob ++ found)
      (.call (.leader "tcp://L" (.collectionCount "db" "s1") (.ofSecs 10)) _) :=
    .call (.call (.call (.call (.call (.call (.call (.refl _)))))))
  refine ⟨(law.1 2 _ _).mpr ⟨[unserved], served, by decide, ?waited, ?ready, rfl⟩,
    law.2.2.1 _ _ (.inr (.inr ⟨by decide, rfl⟩)), law.2.2.2.1 _ _ _ _ waits,
    law.2.2.2.2 _ _ _ _ _ calls⟩
  case waited => exact List.forall_mem_singleton.mpr (.unserved planned)
  case ready => exact .ready planned rfl (.inl (by decide))

end FollowerSync.Attempt
