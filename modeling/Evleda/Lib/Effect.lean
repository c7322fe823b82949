/-
Computations that may raise and that write to a state.

A method of a Python object reads the object's attributes, checks something,
writes attributes and may raise anywhere.  What it wrote before it raised stays
written, so the state is part of the outcome in both cases; whether a call that
raised left the object alone is a question to be asked, not a feature of the
model.

The two questions asked of such a computation have one rule per construct: which
state and result it returns with (`returns`), and whether a raise leaves the
state as it was (`AtomicAt`).
-/
import Evleda.Lib.Outcome

namespace Evleda

/-- A computation on a state `σ` that returns an `α` or raises an `ε`. -/
def Effect (σ ε α : Type) : Type := σ → Except ε α × σ

namespace Effect

variable {σ ε α β : Type}

def run (x : Effect σ ε α) (s : σ) : Except ε α × σ := x s

instance : Monad (Effect σ ε) where
  pure a := fun s => (.ok a, s)
  bind x f := fun s =>
    match x s with
    | (.ok a, s') => f a s'
    | (.error e, s') => (.error e, s')

/-- A computation that does not touch the state. -/
def check (x : Except ε α) : Effect σ ε α := fun s => (x, s)

/-- Read something off the state. -/
def read (f : σ → α) : Effect σ ε α := fun s => (.ok (f s), s)

/-- Change the state. -/
def write (f : σ → σ) : Effect σ ε Unit := fun s => (.ok (), f s)

@[simp] theorem run_pure (a : α) (s : σ) : (pure a : Effect σ ε α).run s = (.ok a, s) := rfl

@[simp] theorem run_check (x : Except ε α) (s : σ) : (check x : Effect σ ε α).run s = (x, s) := rfl

@[simp] theorem run_read_bind (g : σ → α) (f : α → Effect σ ε β) (s : σ) :
    (read g >>= f).run s = (f (g s)).run s := rfl

@[simp] theorem run_write_bind (g : σ → σ) (f : Unit → Effect σ ε β) (s : σ) :
    (write g >>= f).run s = (f ()).run (g s) := rfl

theorem run_bind (x : Effect σ ε α) (f : α → Effect σ ε β) (s : σ) :
    (x >>= f).run s =
      match x.run s with
      | (.ok a, s') => (f a).run s'
      | (.error e, s') => (.error e, s') := rfl

theorem run_check_bind (x : Except ε α) (f : α → Effect σ ε β) (s : σ) :
    (check x >>= f).run s =
      match x with
      | .ok a => (f a).run s
      | .error e => (.error e, s) := by
  cases x <;> rfl

/-! ### What a computation returns -/

variable {f : α → Effect σ ε β} {x : Effect σ ε α}

/-- A sequence returns when its first part did and the rest does from there. -/
theorem bind_returns {s s' : σ} {b : β} :
    (x >>= f).run s = (.ok b, s') ↔
      ∃ a m, x.run s = (.ok a, m) ∧ (f a).run m = (.ok b, s') := by
  rw [run_bind]
  cases hx : x.run s with
  | mk result m =>
      cases result with
      | error e => simp
      | ok a => simp

theorem check_bind_returns {x : Except ε α} {s s' : σ} {b : β} :
    (check x >>= f).run s = (.ok b, s') ↔ ∃ a, x = .ok a ∧ (f a).run s = (.ok b, s') := by
  cases x with
  | error e =>
      constructor
      · intro h; cases h
      · rintro ⟨a, ha, -⟩; cases ha
  | ok a =>
      constructor
      · intro h; exact ⟨a, rfl, h⟩
      · rintro ⟨a', ha, h⟩; cases ha; exact h

theorem check_returns {x : Except ε α} {s s' : σ} {b : α} :
    (check x : Effect σ ε α).run s = (.ok b, s') ↔ x = .ok b ∧ s' = s := by
  rw [run_check, Prod.mk.injEq, @eq_comm _ s s']

theorem pure_returns {a b : α} {s s' : σ} :
    (pure a : Effect σ ε α).run s = (.ok b, s') ↔ b = a ∧ s' = s := by
  rw [run_pure, Prod.mk.injEq, Except.ok.injEq, @eq_comm _ a b, @eq_comm _ s s']

/-! ### What a raise leaves behind -/

/-- Run from `s`, a computation that raises leaves the state as it was. -/
def AtomicAt (s : σ) (x : Effect σ ε α) : Prop :=
  ∀ e s', x.run s = (.error e, s') → s' = s

namespace AtomicAt

variable {s : σ}

theorem pure (a : α) : AtomicAt s (Pure.pure a : Effect σ ε α) := by
  intro e s' h
  cases h

theorem check (x : Except ε α) : AtomicAt s (Effect.check x : Effect σ ε α) := by
  intro e s' h
  rw [run_check, Prod.mk.injEq] at h
  exact h.2.symm

theorem read_bind {g : σ → α} (hf : AtomicAt s (f (g s))) :
    AtomicAt s (read g >>= f) :=
  hf

theorem check_bind {x : Except ε α}
    (hf : ∀ a, x = .ok a → AtomicAt s (f a)) : AtomicAt s (Effect.check x >>= f) := by
  intro e s' h
  cases x with
  | error e' =>
      rw [run_check_bind, Prod.mk.injEq] at h
      exact h.2.symm
  | ok a => exact hf a rfl e s' h

/-- After a part that left the state alone, the rest has to be atomic. -/
theorem bind_same (hx : (x.run s).2 = s)
    (hf : ∀ a, x.run s = (.ok a, s) → AtomicAt s (f a)) : AtomicAt s (x >>= f) := by
  intro e s' h
  rw [run_bind] at h
  cases hrun : x.run s with
  | mk result m =>
      rw [hrun] at h hx
      obtain rfl : m = s := hx
      cases result with
      | error e' =>
          cases h
          rfl
      | ok a => exact hf a hrun e s' h

/-- A part that is atomic may be followed by one that does not raise. -/
theorem bind_returning (hx : AtomicAt s x)
    (hf : ∀ a m, x.run s = (.ok a, m) → ∃ b s', (f a).run m = (.ok b, s')) :
    AtomicAt s (x >>= f) := by
  intro e s' h
  rw [run_bind] at h
  cases hrun : x.run s with
  | mk result m =>
      rw [hrun] at h
      cases result with
      | error e' =>
          cases h
          exact hx e _ hrun
      | ok a =>
          obtain ⟨b, s'', hreturns⟩ := hf a m hrun
          have hraises : (f a).run m = (.error e, s') := h
          rw [hreturns] at hraises
          cases hraises

theorem of_returns {a : α} {s' : σ} (h : x.run s = (.ok a, s')) :
    AtomicAt s x := by
  intro e s'' herror
  rw [h] at herror
  cases herror

end AtomicAt

/-! ### The state a computation leaves -/

/-- What holds of the state a sequence leaves, from what its parts leave. -/
theorem bind_leaves {P : σ → Prop} {s : σ}
    (hraises : ∀ e m, x.run s = (.error e, m) → P m)
    (hreturns : ∀ a m, x.run s = (.ok a, m) → P ((f a).run m).2) : P ((x >>= f).run s).2 := by
  rw [run_bind]
  cases hrun : x.run s with
  | mk result m =>
      cases result with
      | error e => exact hraises e m hrun
      | ok a => exact hreturns a m hrun

theorem check_bind_leaves {P : σ → Prop} {x : Except ε α} {s : σ} (hs : P s)
    (hf : ∀ a, x = .ok a → P ((f a).run s).2) : P ((check x >>= f).run s).2 := by
  cases x with
  | error e => exact hs
  | ok a => exact hf a rfl

/-! ### What a computation leaves alone -/

/-- Whether it returns or raises, a computation leaves a part of the state as it was. -/
def Keeps {τ : Type} (part : σ → τ) (x : Effect σ ε α) : Prop := ∀ s, part (x.run s).2 = part s

namespace Keeps

variable {τ : Type} {part : σ → τ}

theorem pure (a : α) : Keeps part (Pure.pure a : Effect σ ε α) := fun _ => rfl

theorem check (x : Except ε α) : Keeps part (Effect.check x : Effect σ ε α) := fun _ => rfl

theorem read (f : σ → α) : Keeps part (Effect.read f : Effect σ ε α) := fun _ => rfl

theorem write {f : σ → σ} (h : ∀ s, part (f s) = part s) :
    Keeps part (Effect.write f : Effect σ ε Unit) := h

theorem bind (hx : Keeps part x)
    (hf : ∀ a, Keeps part (f a)) : Keeps part (x >>= f) := by
  intro s
  rw [run_bind]
  have hs := hx s
  cases hrun : x.run s with
  | mk result m =>
      rw [hrun] at hs
      cases result with
      | error e => exact hs
      | ok a => exact (hf a m).trans hs

end Keeps

end Effect

end Evleda
