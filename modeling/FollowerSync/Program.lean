/-!
# Interaction programs

A program is a tree of calls: each call names what is asked of the surroundings, and the
continuation says what is done with each possible reply. Nothing is fixed about the surroundings,
so a statement about all runs of a program is a statement about every behaviour they may show.
-/

set_option autoImplicit false

namespace FollowerSync

/-- The calls a program may make and the type of the reply to each. -/
structure Signature where
  Call : Type
  Reply : Call → Type

inductive Program (S : Signature) (α : Type) : Type where
  | done (a : α)
  | call (c : S.Call) (next : S.Reply c → Program S α)

namespace Program
variable {S : Signature} {α β γ : Type}

def bind : Program S α → (α → Program S β) → Program S β
  | done a, f => f a
  | call c next, f => call c fun r => (next r).bind f

instance : Monad (Program S) where
  pure := done
  bind := bind

def ask (c : S.Call) : Program S (S.Reply c) := call c done

@[simp] theorem pure_eq (a : α) : (pure a : Program S α) = done a := rfl

@[simp] theorem bind_eq (p : Program S α) (f : α → Program S β) : p >>= f = p.bind f := rfl

@[simp] theorem bind_done (a : α) (f : α → Program S β) : (done a).bind f = f a := rfl

@[simp] theorem bind_call (c : S.Call) (next : S.Reply c → Program S α) (f : α → Program S β) :
    (call c next).bind f = call c fun r => (next r).bind f := rfl

theorem bind_pure_self (p : Program S α) : p.bind done = p := by
  induction p with
  | done a => rfl
  | call c next ih => simp [ih]

theorem bind_bind (p : Program S α) (f : α → Program S β) (g : β → Program S γ) :
    (p.bind f).bind g = p.bind fun a => (f a).bind g := by
  induction p with
  | done a => rfl
  | call c next ih => simp [ih]

instance : LawfulMonad (Program S) :=
  LawfulMonad.mk' _ (fun p => bind_pure_self p) (fun _ _ => rfl) fun p f g => bind_bind p f g

def perform {m : Type → Type} [Monad m] (answer : (c : S.Call) → m (S.Reply c)) :
    Program S α → m α
  | done a => Pure.pure a
  | call c next => do (next (← answer c)).perform answer

/-- Carries a program out on a state. A call without a reply ends the run early. -/
def play {σ : Type} (answer : (c : S.Call) → σ → σ × Option (S.Reply c)) :
    Program S α → σ → σ × Option α
  | done a, s => (s, some a)
  | call c next, s =>
    match answer c s with
    | (s, some r) => (next r).play answer s
    | (s, none) => (s, none)

end Program

structure Event (S : Signature) where
  call : S.Call
  reply : S.Reply call

/-- `Steps p es q`: getting the replies in `es`, `p` makes exactly the calls in `es` and comes
to `q`. -/
inductive Steps {S : Signature} {α : Type} : Program S α → List (Event S) → Program S α → Prop
  | refl (p : Program S α) : Steps p [] p
  | call {c : S.Call} {next : S.Reply c → Program S α} {r : S.Reply c} {es : List (Event S)}
      {q : Program S α} : Steps (next r) es q → Steps (.call c next) (⟨c, r⟩ :: es) q

/-- A complete run: the calls made, the replies got, and the value it ended with. -/
def Runs {S : Signature} {α : Type} (p : Program S α) (es : List (Event S)) (a : α) : Prop :=
  Steps p es (.done a)

namespace Runs
variable {S : Signature} {α β : Type}

@[simp] theorem done_iff {a b : α} {es : List (Event S)} :
    Runs (.done a : Program S α) es b ↔ es = [] ∧ b = a := by
  constructor
  · intro h
    cases h with
    | refl => exact ⟨rfl, rfl⟩
  · rintro ⟨rfl, rfl⟩
    exact .refl _

@[simp] theorem call_iff {c : S.Call} {next : S.Reply c → Program S α} {es : List (Event S)}
    {a : α} :
    Runs (.call c next) es a ↔ ∃ r rest, es = ⟨c, r⟩ :: rest ∧ Runs (next r) rest a := by
  constructor
  · intro h
    cases h with
    | call h => exact ⟨_, _, rfl, h⟩
  · rintro ⟨r, rest, rfl, h⟩
    exact .call h

theorem bind_iff {p : Program S α} {f : α → Program S β} {es : List (Event S)} {b : β} :
    Runs (p.bind f) es b ↔ ∃ es₁ es₂ a, es = es₁ ++ es₂ ∧ Runs p es₁ a ∧ Runs (f a) es₂ b := by
  induction p generalizing es with
  | done a =>
    constructor
    · intro h
      exact ⟨[], es, a, rfl, .refl _, h⟩
    · rintro ⟨es₁, es₂, a', rfl, h₁, h₂⟩
      obtain ⟨rfl, rfl⟩ := done_iff.mp h₁
      exact h₂
  | call c next ih =>
    constructor
    · intro h
      obtain ⟨r, rest, rfl, tail⟩ := call_iff.mp h
      obtain ⟨es₁, es₂, a, rfl, h₁, h₂⟩ := (ih r).mp tail
      exact ⟨⟨c, r⟩ :: es₁, es₂, a, rfl, call_iff.mpr ⟨r, es₁, rfl, h₁⟩, h₂⟩
    · rintro ⟨es₁, es₂, a, rfl, h₁, h₂⟩
      obtain ⟨r, rest, rfl, tail⟩ := call_iff.mp h₁
      exact call_iff.mpr ⟨r, rest ++ es₂, rfl, (ih r).mpr ⟨rest, es₂, a, rfl, tail, h₂⟩⟩

end Runs
end FollowerSync
