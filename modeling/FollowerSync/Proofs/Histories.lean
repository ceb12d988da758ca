import Mathlib.Data.List.Induction
import FollowerSync.Program

/-!
# Programs and their histories

A history lists the calls made so far, each with its reply. `p.Keeps ok Q h` says of a program `p`
that goes on from the history `h`: each of its calls is made at a history where `ok` allows it, and
where it ends, `Q` holds of its value and of the whole history, all this whatever the replies are.
-/

set_option autoImplicit false

namespace FollowerSync
variable {S : Signature} {α β : Type}

abbrev History (S : Signature) := List (Event S)

theorem Steps.before {p q : Program S α} {es later : History S} {e : Event S}
    (h : Steps p (es ++ e :: later) q) : ∃ next, Steps p es (.call e.call next) := by
  induction es generalizing p with
  | nil =>
    cases h with
    | call => exact ⟨_, .refl _⟩
  | cons first es ih =>
    cases h with
    | call tail =>
      obtain ⟨next, steps⟩ := ih tail
      exact ⟨next, .call steps⟩

theorem Steps.append {p q r : Program S α} {es later : History S} (first : Steps p es q)
    (rest : Steps q later r) : Steps p (es ++ later) r := by
  induction first with
  | refl p => exact rest
  | call tail ih => exact .call (ih rest)

theorem Steps.bind {p q : Program S α} {es : History S} (f : α → Program S β)
    (steps : Steps p es q) : Steps (p.bind f) es (q.bind f) := by
  induction steps with
  | refl p => exact .refl _
  | call tail ih => exact .call ih

theorem Steps.runs_append_iff {p q : Program S α} {es later : History S} {a : α}
    (steps : Steps p es q) : Runs p (es ++ later) a ↔ Runs q later a := by
  refine ⟨fun runs => ?_, fun runs => steps.append runs⟩
  induction steps with
  | refl p => exact runs
  | call tail ih =>
    cases runs with
    | call rest => exact ih rest

theorem Runs.eq_of_append_eq {p : Program S α} {es es' later later' : History S} {a a' : α}
    (runs : Runs p es a) (runs' : Runs p es' a') (same : es ++ later = es' ++ later') :
    es = es' ∧ a = a' := by
  induction p generalizing es es' with
  | done b =>
    obtain ⟨rfl, rfl⟩ := Runs.done_iff.mp runs
    obtain ⟨rfl, rfl⟩ := Runs.done_iff.mp runs'
    exact ⟨rfl, rfl⟩
  | call c next ih =>
    obtain ⟨r, rest, rfl, tail⟩ := Runs.call_iff.mp runs
    obtain ⟨r', rest', rfl, tail'⟩ := Runs.call_iff.mp runs'
    obtain ⟨first, others⟩ := List.cons.inj same
    obtain rfl : r = r' := by simpa using first
    obtain ⟨rfl, rfl⟩ := ih r tail tail' others
    exact ⟨rfl, rfl⟩

theorem Steps.nth {p q : Program S α} {es : History S} {e : Event S} {n : Nat}
    (steps : Steps p es q) (found : es[n]? = some e) :
    ∃ next, Steps p (es.take n) (.call e.call next) := by
  obtain ⟨lt, rfl⟩ := List.getElem?_eq_some_iff.mp found
  have split : es.take n ++ es[n] :: es.drop (n + 1) = es := by
    rw [← List.drop_eq_getElem_cons, List.take_append_drop]
  rw [← split] at steps
  exact steps.before

theorem Steps.filter_length_le_one {p q : Program S α} {es : History S} {P : S.Call → Bool}
    (steps : Steps p es q)
    (new : ∀ es c next, Steps p es (.call c next) → P c = true → ∀ e ∈ es, P e.call = false) :
    (es.filter fun e => P e.call).length ≤ 1 := by
  induction es using List.reverseRecOn generalizing q with
  | nil => exact Nat.zero_le 1
  | append_singleton es e ih =>
    obtain ⟨next, earlier⟩ := steps.before
    rw [List.filter_append, List.length_append]
    cases called : P e.call with
    | false => simpa [called] using ih earlier
    | true =>
      have none : es.filter (fun e => P e.call) = [] := by
        rw [List.filter_eq_nil_iff]
        intro e' mem
        simp [new es e.call next earlier called e' mem]
      simp [none, called]

/-!
## Marks

What matters to a statement about a history is often a short list of marks, which some of the events
leave and others do not.
-/

def marks {μ : Type} (mark : Event S → Option μ) (h : History S) : List μ := h.filterMap mark

section
variable {μ : Type} {mark : Event S → Option μ} {m : μ} {ms : List μ} {h : History S} {e : Event S}

theorem mem_marks : m ∈ marks mark h ↔ ∃ e ∈ h, mark e = some m := List.mem_filterMap

theorem marks_append (h later : History S) :
    marks mark (h ++ later) = marks mark h ++ marks mark later := List.filterMap_append

theorem marks_of_none (start : marks mark h = ms) (unmarked : mark e = none) :
    marks mark (h ++ [e]) = ms := by
  rw [marks_append, start]
  simp [marks, unmarked]

theorem marks_of_some (start : marks mark h = ms) (marked : mark e = some m) :
    marks mark (h ++ [e]) = ms ++ [m] := by
  rw [marks_append, start]
  simp [marks, marked]

end

namespace Program

def Keeps (ok : History S → S.Call → Prop) (Q : α → History S → Prop) :
    Program S α → History S → Prop
  | done a, h => Q a h
  | call c next, h => ok h c ∧ ∀ r, (next r).Keeps ok Q (h ++ [⟨c, r⟩])

variable {ok : History S → S.Call → Prop} {Q Q' : α → History S → Prop}
  {R : β → History S → Prop} {K : S.Call → Prop} {p : Program S α} {h : History S}

@[simp] theorem keeps_done (a : α) : (done a : Program S α).Keeps ok Q h ↔ Q a h := Iff.rfl

@[simp] theorem keeps_call (c : S.Call) (next : S.Reply c → Program S α) :
    (call c next).Keeps ok Q h ↔ ok h c ∧ ∀ r, (next r).Keeps ok Q (h ++ [⟨c, r⟩]) := Iff.rfl

@[simp] theorem keeps_bind (f : α → Program S β) :
    (p.bind f).Keeps ok R h ↔ p.Keeps ok (fun a h => (f a).Keeps ok R h) h := by
  induction p generalizing h with
  | done a => rfl
  | call c next ih => simp [ih]

@[simp] theorem keeps_ite {c : Prop} [Decidable c] {q : Program S α} :
    (if c then p else q).Keeps ok Q h ↔ (c → p.Keeps ok Q h) ∧ (¬c → q.Keeps ok Q h) := by
  split <;> simp_all

theorem Keeps.mono (k : p.Keeps ok Q h) (weaker : ∀ a h, Q a h → Q' a h) : p.Keeps ok Q' h := by
  induction p generalizing h with
  | done a => exact weaker a h k
  | call c next ih => exact ⟨k.1, fun r => ih r (k.2 r)⟩

theorem Keeps.and {ok' : History S → S.Call → Prop} (k : p.Keeps ok Q h) (k' : p.Keeps ok' Q' h) :
    p.Keeps ok (fun a h => Q a h ∧ Q' a h) h := by
  induction p generalizing h with
  | done a => exact ⟨k, k'⟩
  | call c next ih => exact ⟨k.1, fun r => ih r (k.2 r) (k'.2 r)⟩

theorem Keeps.weaken {ok' : History S → S.Call → Prop} (k : p.Keeps ok Q h)
    (weaker : ∀ h c, ok h c → ok' h c) : p.Keeps ok' Q h := by
  induction p generalizing h with
  | done a => exact k
  | call c next ih => exact ⟨weaker h c k.1, fun r => ih r (k.2 r)⟩

theorem keeps_congr (same : ∀ a h, Q a h ↔ Q' a h) : p.Keeps ok Q h ↔ p.Keeps ok Q' h :=
  ⟨fun k => k.mono fun a h => (same a h).mp, fun k => k.mono fun a h => (same a h).mpr⟩

theorem keeps_of_forall (allowed : ∀ h c, ok h c) (ended : ∀ a h, Q a h) : p.Keeps ok Q h := by
  induction p generalizing h with
  | done a => exact ended a h
  | call c next ih => exact ⟨allowed h c, fun r => ih r⟩

/-- What a program keeps, it keeps at every call of every run, complete or not. -/
theorem Keeps.of_steps {q : Program S α} {es : History S} (steps : Steps p es q) :
    p.Keeps ok Q h → q.Keeps ok Q (h ++ es) := by
  induction steps generalizing h with
  | refl p => simp
  | call tail ih =>
    intro k
    simpa using ih (k.2 _)

theorem Keeps.allowed {es : History S} {c : S.Call} {next : S.Reply c → Program S α}
    (k : p.Keeps ok Q h) (steps : Steps p es (.call c next)) : ok (h ++ es) c :=
  (k.of_steps steps).1

theorem Keeps.ended {es : History S} {a : α} (k : p.Keeps ok Q h) (runs : Runs p es a) :
    Q a (h ++ es) :=
  k.of_steps runs

theorem Keeps.holds {I : History S → Prop} {q : Program S α} {es : History S}
    (k : p.Keeps ok Q h) (steps : Steps p es q) (called : ∀ h c, ok h c → I h)
    (ended : ∀ a h, Q a h → I h) : I (h ++ es) := by
  have k := k.of_steps steps
  cases q with
  | done a => exact ended a _ k
  | call c next => exact called _ c k.1

/-- The program makes no calls but those in `K`. -/
def Uses (K : S.Call → Prop) : Program S α → Prop
  | done _ => True
  | call c next => K c ∧ ∀ r, (next r).Uses K

@[simp] theorem uses_done (a : α) : (done a : Program S α).Uses K := trivial

@[simp] theorem uses_call (c : S.Call) (next : S.Reply c → Program S α) :
    (call c next).Uses K ↔ K c ∧ ∀ r, (next r).Uses K := Iff.rfl

@[simp] theorem uses_ite {c : Prop} [Decidable c] {q : Program S α} :
    (if c then p else q).Uses K ↔ (c → p.Uses K) ∧ (¬c → q.Uses K) := by
  split <;> simp_all

theorem uses_anything (p : Program S α) : p.Uses fun _ => True := by
  induction p with
  | done a => trivial
  | call c next ih => exact ⟨trivial, ih⟩

theorem Uses.bind {f : α → Program S β} (u : p.Uses K) (rest : ∀ a, (f a).Uses K) :
    (p.bind f).Uses K := by
  induction p with
  | done a => exact rest a
  | call c next ih => exact ⟨u.1, fun r => ih r (u.2 r)⟩

theorem Uses.mono {K' : S.Call → Prop} (u : p.Uses K) (wider : ∀ c, K c → K' c) : p.Uses K' := by
  induction p with
  | done a => trivial
  | call c next ih => exact ⟨wider c u.1, fun r => ih r (u.2 r)⟩

theorem Uses.called {q : Program S α} {es : History S} (u : p.Uses K) (steps : Steps p es q) :
    ∀ e ∈ es, K e.call := by
  induction steps with
  | refl p => exact List.forall_mem_nil _
  | call tail ih => exact List.forall_mem_cons.mpr ⟨u.1, ih (u.2 _)⟩

/-- What no call in `K` disturbs holds as long as a program makes only those. -/
theorem Uses.keeps {I : History S → Prop} (u : p.Uses K)
    (allowed : ∀ h c, I h → K c → ok h c) (kept : ∀ h c r, I h → K c → I (h ++ [⟨c, r⟩]))
    (start : I h) : p.Keeps ok (fun _ => I) h := by
  induction p generalizing h with
  | done a => exact start
  | call c next ih =>
    exact ⟨allowed h c start u.1, fun r => ih r (u.2 r) (kept h c r start u.1)⟩

theorem Uses.keeps_runs (u : p.Uses K) (allowed : ∀ h c, K c → ok h c) :
    p.Keeps ok (fun a h' => ∃ es, h' = h ++ es ∧ Runs p es a) h := by
  induction p generalizing h with
  | done a => exact ⟨[], (List.append_nil h).symm, .refl _⟩
  | call c next ih =>
    refine ⟨allowed h c u.1, fun r => (ih r (u.2 r)).mono ?_⟩
    rintro a h' ⟨es, rfl, runs⟩
    exact ⟨⟨c, r⟩ :: es, by simp, .call runs⟩

def follow (answer : (c : S.Call) → Option (S.Reply c)) : Program S α → Option (History S × α)
  | done a => some ([], a)
  | call c next =>
    match answer c with
    | none => none
    | some r => ((next r).follow answer).map fun (es, a) => (⟨c, r⟩ :: es, a)

theorem runs_of_follow {answer : (c : S.Call) → Option (S.Reply c)} {run : History S × α}
    (h : p.follow answer = some run) : Runs p run.1 run.2 := by
  induction p generalizing run with
  | done a =>
    cases h
    exact .refl _
  | call c next ih =>
    unfold follow at h
    cases answered : answer c with
    | none => simp [answered] at h
    | some r =>
      simp only [answered, Option.map_eq_some_iff] at h
      obtain ⟨rest, followed, rfl⟩ := h
      exact .call (ih r followed)

theorem follow_bind (answer : (c : S.Call) → Option (S.Reply c)) (f : α → Program S β) :
    (p.bind f).follow answer = (p.follow answer).bind fun (es, a) =>
      ((f a).follow answer).map fun (later, b) => (es ++ later, b) := by
  induction p with
  | done a => simp [follow]
  | call c next ih =>
    simp only [bind_call, follow]
    cases answer c with
    | none => rfl
    | some r =>
      dsimp only
      rw [ih r, Option.map_bind, Option.bind_map]
      simp [Function.comp_def]

/-- Answers by a rule that knows what was called before, and notes the call. -/
def noting (rule : History S → (c : S.Call) → Option (S.Reply c)) (c : S.Call) (h : History S) :
    History S × Option (S.Reply c) :=
  match rule h c with
  | some r => (h ++ [⟨c, r⟩], some r)
  | none => (h, none)

theorem runs_of_play {rule : History S → (c : S.Call) → Option (S.Reply c)} {h later : History S}
    {a : α} (played : p.play (noting rule) h = (later, some a)) :
    ∃ es, later = h ++ es ∧ Runs p es a := by
  induction p generalizing h with
  | done b =>
    cases played
    exact ⟨[], (List.append_nil _).symm, .refl _⟩
  | call c next ih =>
    unfold play noting at played
    cases answered : rule h c with
    | none => simp [answered] at played
    | some r =>
      simp only [answered] at played
      obtain ⟨es, rfl, runs⟩ := ih r played
      exact ⟨⟨c, r⟩ :: es, by simp, .call runs⟩

theorem runs_of_played {rule : History S → (c : S.Call) → Option (S.Reply c)} {a : α}
    (ended : (p.play (noting rule) []).2 = some a) : Runs p (p.play (noting rule) []).1 a := by
  have played : p.play (noting rule) [] = ((p.play (noting rule) []).1, some a) :=
    Prod.ext rfl ended
  obtain ⟨es, same, runs⟩ := runs_of_play played
  rw [same, List.nil_append]
  exact runs

theorem Uses.plays {rule : History S → (c : S.Call) → Option (S.Reply c)} (u : p.Uses K)
    (answers : ∀ h c, K c → (rule h c).isSome) (h : History S) :
    (p.play (noting rule) h).2.isSome := by
  induction p generalizing h with
  | done a => rfl
  | call c next ih =>
    obtain ⟨r, answered⟩ := Option.isSome_iff_exists.mp (answers h c u.1)
    simp only [play, noting, answered]
    exact ih r (u.2 r) _

end Program
end FollowerSync
