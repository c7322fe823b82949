/-
Computations that ask an outside party and may raise.

A service asks a worker for something, looks at the answer, asks again, and may
raise anywhere.  What it has asked it has asked: the outcome of such a
computation is what it returned or raised together with everything it asked, in
order.  A state the computation works on is passed as a value, so whether a raise
keeps the new state is for the caller to say.

There is one rule for each of the two questions: when a sequence returns, and
when something was asked on the way.
-/
import Evleda.Lib.Outcome

namespace Evleda

/-- The outcome of a computation that asks with `ρ`. -/
structure Asking (ρ ε α : Type) where
  outcome : Except ε α
  asked : List ρ

namespace Asking

variable {ρ ε α β : Type}

instance : Monad (Asking ρ ε) where
  pure a := ⟨.ok a, []⟩
  bind x f :=
    match x.outcome with
    | .ok a => ⟨(f a).outcome, x.asked ++ (f a).asked⟩
    | .error e => ⟨.error e, x.asked⟩

/-- A computation that asks nothing. -/
def check (x : Except ε α) : Asking ρ ε α := ⟨x, []⟩

def ask (question : Except ε α → ρ) (answer : Except ε α) : Asking ρ ε α :=
  ⟨answer, [question answer]⟩

@[simp] theorem check_outcome (x : Except ε α) : (check x : Asking ρ ε α).outcome = x := rfl

@[simp] theorem check_asked (x : Except ε α) : (check x : Asking ρ ε α).asked = [] := rfl

@[simp] theorem ask_outcome (question : Except ε α → ρ) (answer : Except ε α) :
    (ask question answer).outcome = answer := rfl

@[simp] theorem ask_asked (question : Except ε α → ρ) (answer : Except ε α) :
    (ask question answer).asked = [question answer] := rfl

@[simp] theorem pure_outcome (a : α) : (pure a : Asking ρ ε α).outcome = .ok a := rfl

@[simp] theorem pure_asked (a : α) : (pure a : Asking ρ ε α).asked = [] := rfl

/-- A sequence returns when its first part did and the rest does. -/
theorem bind_ok {x : Asking ρ ε α} {f : α → Asking ρ ε β} {b : β} :
    (x >>= f).outcome = .ok b ↔ ∃ a, x.outcome = .ok a ∧ (f a).outcome = .ok b := by
  obtain ⟨outcome, asked⟩ := x
  cases outcome with
  | error e => simp [bind]
  | ok a => simp [bind]

/-- What a sequence asked its first part asked, or the rest after the first part returned. -/
theorem mem_bind_asked {x : Asking ρ ε α} {f : α → Asking ρ ε β} {r : ρ} :
    r ∈ (x >>= f).asked ↔ r ∈ x.asked ∨ ∃ a, x.outcome = .ok a ∧ r ∈ (f a).asked := by
  obtain ⟨outcome, asked⟩ := x
  cases outcome with
  | error e => simp [bind]
  | ok a => simp [bind]

/-- What a sequence asked, once its first part returned. -/
theorem bind_asked {x : Asking ρ ε α} {f : α → Asking ρ ε β} {a : α} (h : x.outcome = .ok a) :
    (x >>= f).asked = x.asked ++ (f a).asked := by
  obtain ⟨outcome, asked⟩ := x
  cases outcome with
  | error e => cases h
  | ok found =>
      obtain rfl := Except.ok.inj h
      rfl

end Asking

end Evleda
