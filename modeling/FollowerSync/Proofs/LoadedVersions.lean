import FollowerSync.Cluster.View
import Mathlib.Tactic

/-!
# How long a wait for a version takes

A view is changed in any order, and while a wait lasts, versions are published that go up or down.
The view at a moment holds what was published by then. A wait ends at the first moment at which a
version that is high enough is loaded: at once, or together with a publication. What is fetched is
always the version published last. All of this holds whatever carries the loaded version to those
who watch it.
-/

set_option autoImplicit false

namespace FollowerSync.Cluster

inductive Change where
  | planned (place : ShardPlace) (servers : List String)
  | current (place : ShardPlace) (servers : List String)
  | endpoint (server endpoint : String)
  | published (version : UInt64)

def Change.version? : Change → Option UInt64
  | .published version => some version
  | _ => none

def Turn.version? : Turn → Option UInt64
  | .published version => some version
  | .polled => none

namespace MemoryView
variable {W : Watch UInt64}

def change (v : MemoryView W) : Change → MemoryView W
  | .planned place servers => v.setPlanned place servers
  | .current place servers => v.setCurrent place servers
  | .endpoint server endpoint => v.setEndpoint server endpoint
  | .published version => v.publish version

def ofChanges (W : Watch UInt64) (changes : List Change) : MemoryView W := changes.foldl change {}

def loadedVersion (v : MemoryView W) : UInt64 := W.borrow v.loaded

def dueBy : Nat → Timeline → List UInt64
  | _, [] => []
  | moment, (pause, turn) :: rest =>
    if pause ≤ moment then turn.version?.toList ++ dueBy (moment - pause) rest else []

def atMoment (v : MemoryView W) (later : Timeline) (moment : Nat) : MemoryView W :=
  (dueBy moment later).foldl publish v

def lastOf (versions : List UInt64) : UInt64 := versions.getLast?.getD 0

structure Shows (v : MemoryView W) (versions : List UInt64) : Prop where
  version : v.version = lastOf versions
  loaded : v.loadedVersion = lastOf versions

/-- A version that is high enough is loaded at this moment, and none before it. -/
structure FirstLoaded (v : MemoryView W) (wanted : UInt64) (later : Timeline) (moment : Nat) :
    Prop where
  loaded : wanted ≤ (v.atMoment later moment).loadedVersion
  earlier : ∀ before < moment, (v.atMoment later before).loadedVersion < wanted

/-- What happens has moments of its own. -/
def Apart (later : Timeline) : Prop := ∀ p ∈ later, 0 < p.1

/-- No version that is published is high enough. -/
def Low (wanted : UInt64) (later : Timeline) : Prop :=
  ∀ p ∈ later, ∀ version, p.2 = .published version → version < wanted

def span (later : Timeline) : Nat := (later.map Prod.fst).sum

section
variable {v : MemoryView W} {wanted version : UInt64} {later earlier rest : Timeline} {turn : Turn}
  {versions : List UInt64} {waited moment pause : Nat}

/-!
## Published versions
-/

section
variable (lawful : W.Lawful)
include lawful

theorem loadedVersion_publish (v : MemoryView W) (version : UInt64) :
    (v.publish version).loadedVersion = version :=
  lawful.borrow_sendReplace v.loaded version

theorem shows_publish (v : MemoryView W) (versions : List UInt64) (version : UInt64) :
    (v.publish version).Shows (versions ++ [version]) := by
  have last : lastOf (versions ++ [version]) = version := by simp [lastOf]
  exact ⟨last.symm, (loadedVersion_publish lawful v version).trans last.symm⟩

theorem Shows.change (shows : v.Shows versions) (c : Change) :
    (v.change c).Shows (versions ++ c.version?.toList) := by
  cases c with
  | published version => exact shows_publish lawful v versions version
  | planned | current | endpoint =>
    change MemoryView.Shows _ (versions ++ [])
    rw [List.append_nil]
    exact ⟨shows.version, shows.loaded⟩

theorem Shows.foldl_publish (shows : v.Shows versions) (more : List UInt64) :
    (more.foldl MemoryView.publish v).Shows (versions ++ more) := by
  induction more generalizing v versions with
  | nil => simpa using shows
  | cons version more ih => simpa using ih (shows_publish lawful v versions version)

theorem shows_ofChanges (changes : List Change) :
    (ofChanges W changes).Shows (changes.filterMap Change.version?) := by
  induction changes using List.reverseRecOn with
  | nil => exact ⟨rfl, lawful.borrow_create 0⟩
  | append_singleton changes c ih =>
    have shows := Shows.change lawful ih c
    rw [ofChanges, List.foldl_append, List.filterMap_append]
    cases read : c.version? <;> simpa [List.filterMap_cons, read, ofChanges] using shows

end

theorem atMoment_nil (v : MemoryView W) (moment : Nat) : v.atMoment [] moment = v := rfl

theorem atMoment_of_lt (early : moment < pause) :
    v.atMoment ((pause, turn) :: rest) moment = v := by
  simp [atMoment, dueBy, Nat.not_le.mpr early]

theorem atMoment_of_le (due : pause ≤ moment) :
    v.atMoment ((pause, turn) :: rest) moment =
      (v.after turn).atMoment rest (moment - pause) := by
  rw [atMoment, dueBy, if_pos due, List.foldl_append]
  cases turn <;> rfl

theorem Apart.cons (apart : Apart ((pause, turn) :: rest)) : 0 < pause ∧ Apart rest :=
  List.forall_mem_cons.mp apart

theorem Low.cons (low : Low wanted ((pause, turn) :: rest)) :
    (∀ version, turn = .published version → version < wanted) ∧ Low wanted rest :=
  List.forall_mem_cons.mp low

theorem atMoment_zero (apart : Apart later) : v.atMoment later 0 = v := by
  cases later with
  | nil => exact atMoment_nil v 0
  | cons p rest => exact atMoment_of_lt apart.cons.1

/-!
## The first version that is high enough
-/

theorem firstLoaded_of_loaded (apart : Apart later) (loaded : wanted ≤ v.loadedVersion) :
    v.FirstLoaded wanted later moment ↔ moment = 0 := by
  constructor
  · intro first
    by_contra positive
    have below := first.earlier 0 (by omega)
    rw [atMoment_zero apart] at below
    exact UInt64.not_lt.mpr loaded below
  · rintro rfl
    refine ⟨by rwa [atMoment_zero apart], fun before early => ?_⟩
    omega

theorem not_firstLoaded_nil (below : v.loadedVersion < wanted) :
    ¬v.FirstLoaded wanted [] moment :=
  fun first => UInt64.not_le.mpr below first.loaded

theorem firstLoaded_cons (below : v.loadedVersion < wanted) :
    v.FirstLoaded wanted ((pause, turn) :: rest) moment ↔
      pause ≤ moment ∧ (v.after turn).FirstLoaded wanted rest (moment - pause) := by
  constructor
  · intro first
    have due : pause ≤ moment := by
      by_contra early
      have loaded := first.loaded
      rw [atMoment_of_lt (by omega)] at loaded
      exact UInt64.not_le.mpr below loaded
    refine ⟨due, ?_, fun before early => ?_⟩
    · rw [← atMoment_of_le due]
      exact first.loaded
    · have lower := first.earlier (before + pause) (by omega)
      rwa [atMoment_of_le (by omega), Nat.add_sub_cancel] at lower
  · rintro ⟨due, first⟩
    refine ⟨?_, fun before early => ?_⟩
    · rw [atMoment_of_le due]
      exact first.loaded
    · by_cases passed : pause ≤ before
      · rw [atMoment_of_le passed]
        exact first.earlier (before - pause) (by omega)
      · rwa [atMoment_of_lt (by omega)]

/-!
## Polls of a wait
-/

/-- A wait for a version that is not over, of which the task sleeps. -/
def Sleeps (v : MemoryView W) (wanted : UInt64) (x : W.Wait) : Prop :=
  W.Waiting (fun loaded => wanted ≤ loaded) .idle v.loaded x

variable {x : W.Wait}

section
variable (lawful : W.Lawful)
include lawful

theorem poll_eq {s : Watch.Standing}
    (waiting : W.Waiting (fun loaded => wanted ≤ loaded) s v.loaded x) (unseen : s ≠ .idle) :
    (W.poll v.loaded x).1 =
      if decide (wanted ≤ v.loadedVersion) then some (.ok v.loadedVersion) else none := by
  cases s with
  | fresh => exact lawful.first waiting
  | idle => exact absurd rfl unseen
  | notified => exact lawful.again waiting

theorem pollWait_of_loaded {s : Watch.Standing}
    (waiting : W.Waiting (fun loaded => wanted ≤ loaded) s v.loaded x) (unseen : s ≠ .idle)
    (loaded : wanted ≤ v.loadedVersion) : ∃ x', v.pollWait x = (some (.ok ()), x') := by
  have polled : W.poll v.loaded x = (some (.ok v.loadedVersion), (W.poll v.loaded x).2) :=
    Prod.ext ((poll_eq lawful waiting unseen).trans (if_pos (decide_eq_true loaded))) rfl
  exact ⟨_, by rw [pollWait, polled]⟩

theorem pollWait_of_below {s : Watch.Standing}
    (waiting : W.Waiting (fun loaded => wanted ≤ loaded) s v.loaded x)
    (below : v.loadedVersion < wanted) : ∃ x', v.pollWait x = (none, x') ∧ v.Sleeps wanted x' := by
  have none : (W.poll v.loaded x).1 = none := by
    by_cases idle : s = .idle
    · exact lawful.goesOn (idle ▸ waiting)
    · rw [poll_eq lawful waiting idle, decide_eq_false (UInt64.not_le.mpr below)]
      rfl
  have polled : W.poll v.loaded x = (.none, (W.poll v.loaded x).2) := Prod.ext none rfl
  exact ⟨_, by rw [pollWait, polled], waiting.polled polled⟩

theorem resume_of_loaded (sleeps : v.Sleeps wanted x) (high : wanted ≤ version) :
    v.resume x ((pause, .published version) :: later) waited =
      (some (waited + pause, .ok ()), v.publish version) := by
  have notified := sleeps.sent version
  have wakes : W.wakes (v.publish version).loaded x = true := lawful.notifies notified
  have loaded : wanted ≤ (v.publish version).loadedVersion :=
    (loadedVersion_publish lawful v version).symm ▸ high
  obtain ⟨x', polled⟩ := pollWait_of_loaded lawful notified (by decide) loaded
  rw [resume]
  simp only [after, if_pos (Or.inr wakes), polled]

theorem resume_of_below (sleeps : v.Sleeps wanted x)
    (below : (v.after turn).loadedVersion < wanted) (pause waited : Nat) (later : Timeline) :
    ∃ x', (v.after turn).Sleeps wanted x' ∧ v.resume x ((pause, turn) :: later) waited =
      (v.after turn).resume x' later (waited + pause) := by
  obtain ⟨s, waiting, polls⟩ : ∃ s,
      W.Waiting (fun loaded => wanted ≤ loaded) s (v.after turn).loaded x ∧
        (turn = .polled ∨ W.wakes (v.after turn).loaded x = true) := by
    cases turn with
    | published version => exact ⟨_, sleeps.sent version, .inr (lawful.notifies (sleeps.sent _))⟩
    | polled => exact ⟨_, sleeps, .inl rfl⟩
  obtain ⟨x', polled, sleeps'⟩ := pollWait_of_below lawful waiting below
  refine ⟨x', sleeps', ?_⟩
  rw [resume]
  simp only [if_pos polls, polled]

theorem waitForVersion_of_loaded (later : Timeline) (loaded : wanted ≤ v.loadedVersion) :
    v.waitForVersion wanted later = (some (0, .ok ()), v) := by
  obtain ⟨x', polled⟩ := pollWait_of_loaded lawful (.begun v.loaded) (by decide) loaded
  rw [waitForVersion, beginWait, polled]

theorem waitForVersion_of_below (later : Timeline) (below : v.loadedVersion < wanted) :
    ∃ x, v.Sleeps wanted x ∧ v.waitForVersion wanted later = v.resume x later 0 := by
  obtain ⟨x, polled, sleeps⟩ := pollWait_of_below lawful (.begun v.loaded) below
  exact ⟨x, sleeps, by rw [waitForVersion, beginWait, polled]⟩

/-!
## A sleeping wait
-/

theorem after_below (below : v.loadedVersion < wanted)
    (low : ∀ version, turn = .published version → version < wanted) :
    (v.after turn).loadedVersion < wanted := by
  cases turn with
  | published version => exact (loadedVersion_publish lawful v version).symm ▸ low version rfl
  | polled => exact below

theorem published_of_loaded (below : v.loadedVersion < wanted)
    (loaded : wanted ≤ (v.after turn).loadedVersion) :
    ∃ version, turn = .published version ∧ wanted ≤ version := by
  cases turn with
  | published version => exact ⟨version, rfl, loadedVersion_publish lawful v version ▸ loaded⟩
  | polled => exact absurd loaded (UInt64.not_le.mpr below)

/-- A sleeping wait ends when a version that is high enough is first loaded. -/
theorem resume_eq_some_iff {answer : Except Fault Unit} (apart : Apart later)
    (sleeps : v.Sleeps wanted x) (below : v.loadedVersion < wanted) :
    (v.resume x later waited).1 = some (moment, answer) ↔
      answer = .ok () ∧ waited ≤ moment ∧ v.FirstLoaded wanted later (moment - waited) := by
  -- by induction on what is still to happen; what was waited for so far shifts the moments
  induction later generalizing v x waited with
  | nil => simp [resume, not_firstLoaded_nil below]
  | cons p rest ih =>
    obtain ⟨pause, turn⟩ := p
    rw [firstLoaded_cons below]
    by_cases loaded : wanted ≤ (v.after turn).loadedVersion
    · obtain ⟨version, rfl, high⟩ := published_of_loaded lawful below loaded
      have first : FirstLoaded _ wanted rest (moment - waited - pause) ↔ _ :=
        firstLoaded_of_loaded apart.cons.2 loaded
      rw [resume_of_loaded lawful sleeps high, first]
      simp only [Option.some.injEq, Prod.mk.injEq]
      constructor
      · rintro ⟨rfl, rfl⟩
        exact ⟨rfl, by omega⟩
      · rintro ⟨rfl, ends⟩
        exact ⟨by omega, rfl⟩
    · obtain ⟨x', sleeps', resumes⟩ :=
        resume_of_below lawful sleeps (UInt64.not_le.mp loaded) pause waited rest
      have reached : waited + pause ≤ moment ↔ waited ≤ moment ∧ pause ≤ moment - waited := by
        omega
      rw [resumes, ih apart.cons.2 sleeps' (UInt64.not_le.mp loaded), Nat.sub_add_eq, reached]
      tauto

theorem resume_view (apart : Apart later) (sleeps : v.Sleeps wanted x)
    (below : v.loadedVersion < wanted) (waited : Nat) :
    (v.resume x later waited).2 = v.atMoment later
      (((v.resume x later waited).1.elim (waited + span later) Prod.fst) - waited) := by
  induction later generalizing v x waited with
  | nil => rfl
  | cons p rest ih =>
    obtain ⟨pause, turn⟩ := p
    have sum : span ((pause, turn) :: rest) = pause + span rest := rfl
    by_cases loaded : wanted ≤ (v.after turn).loadedVersion
    · obtain ⟨version, rfl, high⟩ := published_of_loaded lawful below loaded
      rw [resume_of_loaded lawful sleeps high, Option.elim_some, Nat.add_sub_cancel_left,
        atMoment_of_le (Nat.le_refl _), Nat.sub_self, atMoment_zero apart.cons.2]
      rfl
    · obtain ⟨x', sleeps', resumes⟩ :=
        resume_of_below lawful sleeps (UInt64.not_le.mp loaded) pause waited rest
      rw [resumes, ih apart.cons.2 sleeps' (UInt64.not_le.mp loaded)]
      cases ended : ((v.after turn).resume x' rest (waited + pause)).1 with
      | none =>
        rw [Option.elim_none, Option.elim_none, sum, atMoment_of_le (by omega)]
        congr 1
        omega
      | some end' =>
        have reached := (resume_eq_some_iff lawful apart.cons.2 sleeps'
          (UInt64.not_le.mp loaded)).mp ended
        rw [Option.elim_some, Option.elim_some, atMoment_of_le (by omega), Nat.sub_add_eq]

theorem resume_append (sleeps : v.Sleeps wanted x) (below : v.loadedVersion < wanted)
    (low : Low wanted earlier) (rest : Timeline) (waited : Nat) :
    ∃ (v' : MemoryView W) (x' : W.Wait), v'.loadedVersion < wanted ∧ v'.Sleeps wanted x' ∧
      v.resume x (earlier ++ rest) waited = v'.resume x' rest (waited + span earlier) := by
  induction earlier generalizing v x waited with
  | nil => exact ⟨v, x, below, sleeps, rfl⟩
  | cons p earlier ih =>
    obtain ⟨pause, turn⟩ := p
    have below' := after_below lawful below low.cons.1
    obtain ⟨x', sleeps', resumes⟩ := resume_of_below lawful sleeps below' pause waited
      (earlier ++ rest)
    have sum : span ((pause, turn) :: earlier) = pause + span earlier := rfl
    rw [List.cons_append, resumes, sum, ← Nat.add_assoc]
    exact ih sleeps' below' low.cons.2 _

end
end

structure WaitLaw (v : MemoryView W) (wanted : UInt64) (later : Timeline) : Prop where
  ends (moment : Nat) (answer : Except Fault Unit) :
    (v.waitForVersion wanted later).1 = some (moment, answer) ↔
      answer = .ok () ∧ v.FirstLoaded wanted later moment
  left : (v.waitForVersion wanted later).2 =
    v.atMoment later ((v.waitForVersion wanted later).1.elim (span later) Prod.fst)
  atOnce : wanted ≤ v.loadedVersion → (v.waitForVersion wanted later).1 = some (0, .ok ())
  publication (earlier rest : Timeline) (pause : Nat) (version : UInt64) :
    v.loadedVersion < wanted → later = earlier ++ (pause, .published version) :: rest →
    Low wanted earlier → wanted ≤ version →
    (v.waitForVersion wanted later).1 = some (span earlier + pause, .ok ())
  never : v.loadedVersion < wanted → Low wanted later → (v.waitForVersion wanted later).1 = none

theorem waitLaw (lawful : W.Lawful) (v : MemoryView W) (wanted : UInt64) {later : Timeline}
    (apart : Apart later) : v.WaitLaw wanted later where
  ends moment answer := by
    by_cases loaded : wanted ≤ v.loadedVersion
    · rw [waitForVersion_of_loaded lawful later loaded, firstLoaded_of_loaded apart loaded]
      simp only [Option.some.injEq, Prod.mk.injEq]
      tauto
    · have below := UInt64.not_le.mp loaded
      obtain ⟨x, sleeps, waits⟩ := waitForVersion_of_below lawful later below
      rw [waits, resume_eq_some_iff lawful apart sleeps below]
      simp
  left := by
    by_cases loaded : wanted ≤ v.loadedVersion
    · rw [waitForVersion_of_loaded lawful later loaded]
      exact (atMoment_zero apart).symm
    · have below := UInt64.not_le.mp loaded
      obtain ⟨x, sleeps, waits⟩ := waitForVersion_of_below lawful later below
      simpa [waits] using resume_view lawful apart sleeps below 0
  atOnce loaded := by rw [waitForVersion_of_loaded lawful later loaded]
  publication earlier rest pause version below split low high := by
    obtain ⟨x, sleeps, waits⟩ := waitForVersion_of_below lawful later below
    obtain ⟨v', x', -, sleeps', resumes⟩ := resume_append lawful sleeps below low
      ((pause, .published version) :: rest) 0
    rw [waits, split, resumes, resume_of_loaded lawful sleeps' high, Nat.zero_add]
  never below low := by
    obtain ⟨x, sleeps, waits⟩ := waitForVersion_of_below lawful later below
    obtain ⟨v', x', -, -, resumes⟩ := resume_append lawful sleeps below low [] 0
    rw [waits, ← List.append_nil later, resumes]
    rfl

def changesBefore : List Change :=
  [.published 7, .endpoint "PRMR-L" "tcp://leader:8530", .published 2]

def publications : Timeline :=
  [(300, .published 1), (50, .polled), (150, .published 5), (100, .published 3)]

end MemoryView
end FollowerSync.Cluster
