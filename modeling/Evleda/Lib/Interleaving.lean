/-
Computations in steps, and what holds of them however they interleave.

A call on something shared is not one step: between two of its steps other callers
take theirs.  `Steps` is such a computation: what it does to the shared state in one
step, and how it goes on from what it found.

A configuration is the shared state with what every party has still to do.  A
schedule says whose step is next, and who stops for good; what a party held when
it stopped is given back.

`Safe` is the rule that one party can be looked at alone: before each of its steps
the others may have changed the state within what the party relies on, and what
the step changes stays within what the party guarantees.
-/
import Evleda.Lib.Effect
import Evleda.Lib.Replay
import Mathlib.Logic.Function.Basic

namespace Evleda

open Function

/-- A computation on a shared state `σ` that returns an `α` or raises an `ε`, step by step. -/
inductive Steps (π σ ε α : Type) : Type
  | done (result : Except ε α)
  | step (place : π) (move : σ → σ) (rest : σ → Steps π σ ε α)

namespace Steps

variable {π σ ε α β : Type}

/-- Go on with what was returned. -/
def bind : Steps π σ ε α → (α → Steps π σ ε β) → Steps π σ ε β
  | done (.ok a), f => f a
  | done (.error e), _ => done (.error e)
  | step place move rest, f => step place move fun s => (rest s).bind f

instance : Monad (Steps π σ ε) where
  pure a := done (.ok a)
  bind := bind

/-- A computation that does not touch the state. -/
def check (x : Except ε α) : Steps π σ ε α := done x

/-- A computation done in one step. -/
def atomic (place : π) (x : Effect σ ε α) : Steps π σ ε α :=
  step place (fun s => (x.run s).2) fun s => done (x.run s).1

/-- Go on with what was raised. -/
def handling : Steps π σ ε α → (ε → Steps π σ ε α) → Steps π σ ε α
  | done (.ok a), _ => done (.ok a)
  | done (.error e), handler => handler e
  | step place move rest, handler => step place move fun s => (rest s).handling handler

@[simp] theorem pure_eq (a : α) : (pure a : Steps π σ ε α) = done (.ok a) := rfl

@[simp] theorem check_ok_bind (a : α) (f : α → Steps π σ ε β) : (check (.ok a) >>= f) = f a := rfl

theorem check_require_bind {p : Prop} [Decidable p] {e : ε} (h : p) (f : Unit → Steps π σ ε β) :
    (check (require p e) >>= f) = f () := by
  rw [Outcome.require_ok.mpr h]
  rfl

@[simp] theorem done_ok_bind (a : α) (f : α → Steps π σ ε β) : (done (.ok a) >>= f) = f a := rfl

/-- A sequence may be cut anywhere. -/
theorem bind_assoc {γ : Type} (x : Steps π σ ε α) (f : α → Steps π σ ε β)
    (g : β → Steps π σ ε γ) : (x >>= f) >>= g = x >>= fun a => f a >>= g := by
  induction x with
  | done result =>
      cases result with
      | ok a => rfl
      | error e => rfl
  | step place move rest ih => exact congrArg (step place move) (funext ih)

/-! ### Alone -/

/-- What a computation does when nobody else takes a step. -/
def alone : Steps π σ ε α → Effect σ ε α
  | done result => Effect.check result
  | step _ move rest => fun s => (rest s).alone.run (move s)

@[simp] theorem alone_atomic (place : π) (x : Effect σ ε α) : (atomic place x).alone = x := rfl

theorem alone_bind (x : Steps π σ ε α) (f : α → Steps π σ ε β) :
    (x >>= f).alone = x.alone >>= fun a => (f a).alone := by
  induction x with
  | done result =>
      cases result with
      | ok a => rfl
      | error e => rfl
  | step place move rest ih =>
      funext s
      exact congrFun (ih s) (move s)

theorem run_alone_handling (x : Steps π σ ε α) (handler : ε → Steps π σ ε α) (s : σ) :
    (x.handling handler).alone.run s =
      match x.alone.run s with
      | (.ok a, s') => (.ok a, s')
      | (.error e, s') => (handler e).alone.run s' := by
  induction x generalizing s with
  | done result =>
      cases result with
      | ok a => rfl
      | error e => rfl
  | step place move rest ih => exact ih s (move s)

/-- Alone, the steps `x` come from `s` to what is left of them, `y`, and to `s'`, each standing where
`meets` holds. -/
inductive Comes (meets : π → σ → Prop) : Steps π σ ε α → σ → Steps π σ ε α → σ → Prop
  | here {x : Steps π σ ε α} {s : σ} : Comes meets x s x s
  | step {place : π} {move : σ → σ} {rest : σ → Steps π σ ε α} {s s' : σ} {y : Steps π σ ε α} :
      meets place s → Comes meets (rest s) (move s) y s' → Comes meets (step place move rest) s y s'

namespace Comes

variable {meets : π → σ → Prop} {x y z : Steps π σ ε α} {s m s' : σ}

theorem trans (h : Comes meets x s y m) (h' : Comes meets y m z s') : Comes meets x s z s' := by
  induction h with
  | here => exact h'
  | step hmeets _ ih => exact .step hmeets (ih h')

theorem mono {meets' : π → σ → Prop} (h : Comes meets x s y s')
    (hweaker : ∀ place s, meets place s → meets' place s) : Comes meets' x s y s' := by
  induction h with
  | here => exact .here
  | step hmeets _ ih => exact .step (hweaker _ _ hmeets) ih

theorem bind (h : Comes meets x s y s') (f : α → Steps π σ ε β) :
    Comes meets (x >>= f) s (y >>= f) s' := by
  induction h with
  | here => exact .here
  | step hmeets _ ih => exact .step hmeets ih

theorem handling (h : Comes meets x s y s') (handler : ε → Steps π σ ε α) :
    Comes meets (x.handling handler) s (y.handling handler) s' := by
  induction h with
  | here => exact .here
  | step hmeets _ ih => exact .step hmeets ih

theorem atomic_bind {place : π} {e : Effect σ ε β} {f : β → Steps π σ ε α} {b : β}
    (hmeets : meets place s) (hrun : e.run s = (.ok b, m)) (h : Comes meets (f b) m y s') :
    Comes meets (atomic place e >>= f) s y s' := by
  refine .step hmeets ?_
  show Comes meets (done (e.run s).1 >>= f) (e.run s).2 y s'
  rw [hrun]
  exact h

/-- What the steps `x` do alone, they do from where they come. -/
theorem alone (h : Comes meets x s y s') : x.alone.run s = y.alone.run s' := by
  induction h with
  | here => rfl
  | step _ _ ih => exact ih

end Comes

theorem comes_alone (x : Steps π σ ε α) (s : σ) :
    Comes (fun _ _ => True) x s (done (x.alone.run s).1) (x.alone.run s).2 := by
  induction x generalizing s with
  | done result => exact .here
  | step place move rest ih => exact .step trivial (ih s (move s))

/-! ### One party among others -/

/-- From a state in which a party took its last step, whatever the others do within `rely`, each of
its steps that stands where `meets` holds stays within `guar`, and its result is as `post` says. -/
def Safe (rely guar : σ → σ → Prop) (meets : π → σ → Prop) (post : Except ε α → σ → Prop) :
    Steps π σ ε α → σ → Prop
  | done result, s => ∀ s', rely s s' → post result s'
  | step place move rest, s => ∀ s', rely s s' → meets place s' →
      guar s' (move s') ∧ Safe rely guar meets post (rest s') (move s')

namespace Safe

variable {rely guar : σ → σ → Prop} {meets : π → σ → Prop} {post post' : Except ε α → σ → Prop}
  {x : Steps π σ ε α} {s s' : σ}

/-- What the others do keeps a party safe. -/
theorem later (htrans : ∀ a b c, rely a b → rely b c → rely a c)
    (h : Safe rely guar meets post x s) (hs : rely s s') : Safe rely guar meets post x s' := by
  cases x with
  | done result => exact fun m hm => h m (htrans _ _ _ hs hm)
  | step place move rest => exact fun m hm => h m (htrans _ _ _ hs hm)

theorem weaken (h : Safe rely guar meets post x s) (hpost : ∀ r s, post r s → post' r s) :
    Safe rely guar meets post' x s := by
  induction x generalizing s with
  | done result => exact fun m hm => hpost _ _ (h m hm)
  | step place move rest ih =>
      intro m hm hmeets
      obtain ⟨hguar, hrest⟩ := h m hm hmeets
      exact ⟨hguar, ih m hrest⟩

theorem bind (hrefl : ∀ a, rely a a) {f : α → Steps π σ ε β} {post : Except ε β → σ → Prop}
    (h : Safe rely guar meets (fun r s =>
      match r with
      | .ok a => Safe rely guar meets post (f a) s
      | .error e => post (.error e) s) x s) : Safe rely guar meets post (x >>= f) s := by
  induction x generalizing s with
  | done result =>
      cases result with
      | ok a => exact h s (hrefl s)
      | error e => exact h
  | step place move rest ih =>
      intro m hm hmeets
      obtain ⟨hguar, hrest⟩ := h m hm hmeets
      exact ⟨hguar, ih m hrest⟩

theorem handling (hrefl : ∀ a, rely a a) {handler : ε → Steps π σ ε α}
    (h : Safe rely guar meets (fun r s =>
      match r with
      | .ok a => post (.ok a) s
      | .error e => Safe rely guar meets post (handler e) s) x s) :
    Safe rely guar meets post (x.handling handler) s := by
  induction x generalizing s with
  | done result =>
      cases result with
      | ok a => exact h
      | error e => exact h s (hrefl s)
  | step place move rest ih =>
      intro m hm hmeets
      obtain ⟨hguar, hrest⟩ := h m hm hmeets
      exact ⟨hguar, ih m hrest⟩

/-- A check that passes goes on, and one that does not raises. -/
theorem check_bind {y : Except ε β} {f : β → Steps π σ ε α}
    (hok : ∀ b, y = .ok b → Safe rely guar meets post (f b) s)
    (herror : ∀ e s', y = .error e → rely s s' → post (.error e) s') :
    Safe rely guar meets post (check y >>= f) s := by
  cases y with
  | ok b => exact hok b rfl
  | error e => exact fun m hm => herror e m rfl hm

/-- A check that passes goes on, where raising is as promised anyway. -/
theorem check_bind_refused {y : Except ε β} {f : β → Steps π σ ε α}
    (hrefused : ∀ e s', rely s s' → post (.error e) s')
    (hok : ∀ b, y = .ok b → Safe rely guar meets post (f b) s) :
    Safe rely guar meets post (check y >>= f) s :=
  check_bind hok fun e s' _ hs' => hrefused e s' hs'

theorem atomic_bind {place : π} {y : Effect σ ε β} {f : β → Steps π σ ε α}
    (h : ∀ m, rely s m → meets place m → guar m (y.run m).2 ∧
      (∀ b, (y.run m).1 = .ok b → Safe rely guar meets post (f b) (y.run m).2) ∧
      ∀ e s', (y.run m).1 = .error e → rely (y.run m).2 s' → post (.error e) s') :
    Safe rely guar meets post (atomic place y >>= f) s := by
  intro m hm hmeets
  obtain ⟨hguar, hok, herror⟩ := h m hm hmeets
  refine ⟨hguar, ?_⟩
  have hrest : ((Steps.done (y.run m).1 : Steps π σ ε β) >>= f).Safe rely guar meets post
      (y.run m).2 := by
    cases hresult : (y.run m).1 with
    | ok b => exact hok b hresult
    | error e => exact fun m' hm' => herror e m' hresult hm'
  exact hrest

theorem read_bind {place : π} {g : σ → β} {f : β → Steps π σ ε α} (hguar : ∀ m, guar m m)
    (h : ∀ m, rely s m → meets place m → Safe rely guar meets post (f (g m)) m) :
    Safe rely guar meets post (Steps.atomic place (Effect.read g) >>= f) s :=
  fun m hm hmeets => ⟨hguar m, h m hm hmeets⟩

theorem write_bind {place : π} {g : σ → σ} {f : Unit → Steps π σ ε α}
    (h : ∀ m, rely s m → meets place m → guar m (g m) ∧
      Safe rely guar meets post (f ()) (g m)) :
    Safe rely guar meets post (Steps.atomic place (Effect.write g) >>= f) s :=
  h

theorem atomic {place : π} {y : Effect σ ε α}
    (h : ∀ m, rely s m → meets place m → guar m (y.run m).2 ∧
      ∀ s', rely (y.run m).2 s' → post (y.run m).1 s') :
    Safe rely guar meets post (Steps.atomic place y) s :=
  h

end Safe

end Steps

/-! ### Schedules -/

/-- The shared state, and what the parties have still to do; nothing for one that stopped. -/
structure Parties (ι π σ ε α : Type) where
  shared : σ
  programs : ι → Option (Steps π σ ε α)

/-- Whose turn it is. -/
inductive Turn (ι : Type)
  | step (party : ι)
  | crash (party : ι)

namespace Parties

variable {ι π σ ε α : Type} [DecidableEq ι] (release : ι → σ → σ)

/-- One turn.  Nothing is left to do for a party that is done or has stopped. -/
def after (c : Parties ι π σ ε α) : Turn ι → Parties ι π σ ε α
  | .step i =>
      match c.programs i with
      | some (.step _ move rest) =>
          ⟨move c.shared, update c.programs i (some (rest c.shared))⟩
      | _ => c
  | .crash i =>
      match c.programs i with
      | some _ => ⟨release i c.shared, update c.programs i none⟩
      | none => c

theorem after_cases (c : Parties ι π σ ε α) (turn : Turn ι) :
    c.after release turn = c ∨
      (∃ i place move rest, turn = .step i ∧ c.programs i = some (.step place move rest) ∧
        c.after release turn =
          ⟨move c.shared, update c.programs i (some (rest c.shared))⟩) ∨
      ∃ i x, turn = .crash i ∧ c.programs i = some x ∧
        c.after release turn = ⟨release i c.shared, update c.programs i none⟩ := by
  cases turn with
  | step i =>
      cases hprogram : c.programs i with
      | none =>
          refine Or.inl ?_
          rw [after, hprogram]
      | some x =>
          cases x with
          | done result =>
              refine Or.inl ?_
              rw [after, hprogram]
          | step place move rest =>
              refine Or.inr (Or.inl ⟨i, place, move, rest, rfl, hprogram, ?_⟩)
              rw [after, hprogram]
  | crash i =>
      cases hprogram : c.programs i with
      | none =>
          refine Or.inl ?_
          rw [after, hprogram]
      | some x =>
          refine Or.inr (Or.inr ⟨i, x, rfl, hprogram, ?_⟩)
          rw [after, hprogram]

theorem after_step {c : Parties ι π σ ε α} {i : ι} {place : π} {move : σ → σ}
    {rest : σ → Steps π σ ε α} (h : c.programs i = some (.step place move rest)) :
    c.after release (.step i) =
      ⟨move c.shared, update c.programs i (some (rest c.shared))⟩ := by
  rw [after, h]

theorem after_crash {c : Parties ι π σ ε α} {i : ι} {x : Steps π σ ε α}
    (h : c.programs i = some x) :
    c.after release (.crash i) = ⟨release i c.shared, update c.programs i none⟩ := by
  rw [after, h]

theorem after_read {β : Type} {c : Parties ι π σ ε α} {i : ι} {place : π} {g : σ → β}
    {f : β → Steps π σ ε α}
    (h : c.programs i = some (Steps.atomic place (Effect.read g) >>= f)) :
    c.after release (.step i) =
      ⟨c.shared, update c.programs i (some (f (g c.shared)))⟩ :=
  after_step release h

/-- The step that a turn takes stands where `meets` holds. -/
def Meets (meets : ι → π → σ → Prop) (c : Parties ι π σ ε α) : Turn ι → Prop
  | .step i => ∀ place move rest, c.programs i = some (.step place move rest) →
      meets i place c.shared
  | .crash _ => True

/-- What the parties rely on and guarantee, and that each guarantees what the others rely on. -/
structure Agreed (release : ι → σ → σ) (rely guar : ι → σ → σ → Prop) : Prop where
  refl : ∀ i s, rely i s s
  trans : ∀ i a b c, rely i a b → rely i b c → rely i a c
  others : ∀ i j s s', i ≠ j → guar i s s' → rely j s s'
  released : ∀ i j s, i ≠ j → rely j s (release i s)

def Safely (rely guar : ι → σ → σ → Prop) (meets : ι → π → σ → Prop)
    (post : ι → Except ε α → σ → Prop) (c : Parties ι π σ ε α) : Prop :=
  ∀ i x, c.programs i = some x → x.Safe (rely i) (guar i) (meets i) (post i) c.shared

variable {release} {rely guar : ι → σ → σ → Prop} {meets : ι → π → σ → Prop}
  {post : ι → Except ε α → σ → Prop} {c : Parties ι π σ ε α}

omit [DecidableEq ι] in
/-- What a party that is done returned or raised is as it promised. -/
theorem Safely.result (hagreed : Agreed release rely guar) (h : Safely rely guar meets post c)
    {i : ι} {result : Except ε α} (hdone : c.programs i = some (.done result)) :
    post i result c.shared :=
  h i _ hdone c.shared (hagreed.refl i _)

/-- A turn changes nothing, or is a step within what its party guarantees, or gives back what a
party held that stops. -/
theorem Safely.moves (hagreed : Agreed release rely guar) (h : Safely rely guar meets post c)
    {turn : Turn ι} (hmeets : c.Meets meets turn) :
    (c.after release turn).shared = c.shared ∨
      (∃ i, guar i c.shared (c.after release turn).shared) ∨
      ∃ i, (c.after release turn).shared = release i c.shared := by
  obtain hsame | ⟨i, place, move, rest, rfl, hprogram, hafter⟩ | ⟨i, x, rfl, hprogram, hafter⟩ :=
    after_cases release c turn
  · exact Or.inl (by rw [hsame])
  · have hsafe := h i _ hprogram c.shared (hagreed.refl i _) (hmeets place move rest hprogram)
    rw [hafter]
    exact Or.inr (Or.inl ⟨i, hsafe.1⟩)
  · rw [hafter]
    exact Or.inr (Or.inr ⟨i, rfl⟩)

/-- The turn of a party changes nothing, or is a step within what the party guarantees. -/
theorem Safely.turn (hagreed : Agreed release rely guar) (h : Safely rely guar meets post c) {i : ι}
    (hmeets : c.Meets meets (.step i)) :
    (c.after release (.step i)).shared = c.shared ∨
      guar i c.shared (c.after release (.step i)).shared := by
  obtain hsame | ⟨j, place, move, rest, hturn, hprogram, hafter⟩ | ⟨j, x, hturn, -, -⟩ :=
    after_cases release c (.step i)
  · exact Or.inl (by rw [hsame])
  · obtain rfl := Turn.step.inj hturn
    have hsafe := h i _ hprogram c.shared (hagreed.refl i _) (hmeets place move rest hprogram)
    rw [hafter]
    exact Or.inr hsafe.1
  · cases hturn

/-- **A turn keeps every party safe.** -/
theorem Safely.after (hagreed : Agreed release rely guar) (h : Safely rely guar meets post c)
    {turn : Turn ι} (hmeets : c.Meets meets turn) :
    Safely rely guar meets post (c.after release turn) := by
  obtain hsame | ⟨i, place, move, rest, rfl, hprogram, hafter⟩ | ⟨i, x, rfl, hprogram, hafter⟩ :=
    after_cases release c turn
  · rw [hsame]
    exact h
  · obtain ⟨hguar, hrest⟩ :=
      h i _ hprogram c.shared (hagreed.refl i _) (hmeets place move rest hprogram)
    rw [hafter]
    intro j x hx
    dsimp only at hx ⊢
    by_cases hij : j = i
    · subst hij
      rw [update_self, Option.some.injEq] at hx
      rw [← hx]
      exact hrest
    · rw [update_of_ne hij] at hx
      exact (h j x hx).later (hagreed.trans j) (hagreed.others i j _ _ (Ne.symm hij) hguar)
  · rw [hafter]
    intro j y hy
    dsimp only at hy ⊢
    by_cases hij : j = i
    · subst hij
      rw [update_self] at hy
      cases hy
    · rw [update_of_ne hij] at hy
      exact (h j y hy).later (hagreed.trans j) (hagreed.released i j _ (Ne.symm hij))

/-- **Every schedule keeps the parties safe**, as far as its steps stand where they have to. -/
theorem Safely.replay (hagreed : Agreed release rely guar) (h : Safely rely guar meets post c)
    {turns : List (Turn ι)}
    (hmeets : Replay.Throughout (Parties.after release) (Parties.Meets meets) c turns) :
    Safely rely guar meets post (Evleda.replay (Parties.after release) c turns) :=
  Replay.history_induction (fun _ c => Safely rely guar meets post c) h
    (fun _ _ hbefore hturn => hbefore.after hagreed hturn) turns hmeets

theorem Safely.leads (hagreed : Agreed release rely guar) {R : σ → σ → Prop} (hrefl : ∀ s, R s s)
    (htrans : ∀ a b c, R a b → R b c → R a c) (hguar : ∀ i s s', guar i s s' → R s s')
    (hrelease : ∀ i s, R s (release i s)) (h : Safely rely guar meets post c)
    {turns : List (Turn ι)}
    (hmeets : Replay.Throughout (Parties.after release) (Parties.Meets meets) c turns) :
    R c.shared (Evleda.replay (Parties.after release) c turns).shared := by
  have hboth := Replay.history_induction
    (fun _ c' => Safely rely guar meets post c' ∧ R c.shared c'.shared) ⟨h, hrefl _⟩
    (fun events turn hbefore hturn => by
      refine ⟨hbefore.1.after hagreed hturn, htrans _ _ _ hbefore.2 ?_⟩
      obtain hsame | ⟨i, hstep⟩ | ⟨i, hstop⟩ := hbefore.1.moves hagreed hturn
      · rw [hsame]
        exact hrefl _
      · exact hguar i _ _ hstep
      · rw [hstop]
        exact hrelease i _) turns hmeets
  exact hboth.2

/-- Where nothing is asked of the places of the steps, every schedule keeps the parties safe, and
leads where its steps lead. -/
theorem Safely.reaches (hagreed : Agreed release rely guar) {R : σ → σ → Prop} (hrefl : ∀ s, R s s)
    (htrans : ∀ a b c, R a b → R b c → R a c) (hguar : ∀ i s s', guar i s s' → R s s')
    (hrelease : ∀ i s, R s (release i s)) (h : Safely rely guar (fun _ _ _ => True) post c)
    (turns : List (Turn ι)) :
    Safely rely guar (fun _ _ _ => True) post (Evleda.replay (Parties.after release) c turns) ∧
      R c.shared (Evleda.replay (Parties.after release) c turns).shared := by
  have hfree : Replay.Throughout (Parties.after release) (Parties.Meets fun _ _ _ => True) c
      turns := by
    refine Replay.throughout_of_forall (fun c turn => ?_) c turns
    cases turn with
    | step i => exact fun _ _ _ _ => trivial
    | crash i => exact trivial
  exact ⟨h.replay hagreed hfree, h.leads hagreed hrefl htrans hguar hrelease hfree⟩

theorem turns_of_comes (release : ι → σ → σ) (meets : ι → π → σ → Prop) {i : ι}
    {x y : Steps π σ ε α} {s' : σ} (hprogram : c.programs i = some x)
    (h : Steps.Comes (meets i) x c.shared y s') :
    ∃ n, Evleda.replay (Parties.after release) c (List.replicate n (.step i)) =
        ⟨s', update c.programs i (some y)⟩ ∧
      Replay.Throughout (Parties.after release) (Parties.Meets meets) c
        (List.replicate n (.step i)) := by
  generalize hs : c.shared = s at h
  induction h generalizing c with
  | here =>
      refine ⟨0, ?_, trivial⟩
      rw [← hprogram, ← hs, update_eq_self]
      rfl
  | @step place move rest _ _ _ hmeets _ ih =>
      subst hs
      have hturn := after_step release hprogram
      obtain ⟨n, hn, hthroughout⟩ := @ih
        ⟨move c.shared, update c.programs i (some (rest c.shared))⟩
        (update_self ..) rfl
      refine ⟨n + 1, ?_, ?_, ?_⟩
      · rw [List.replicate_succ, Replay.cons hturn, hn]
        dsimp only
        rw [update_idem]
      · intro place' move' rest' hstep
        obtain ⟨hplace, -⟩ := Steps.step.inj (Option.some.inj (hprogram.symm.trans hstep))
        exact hplace ▸ hmeets
      · rw [hturn]
        exact hthroughout

theorem stops_of_comes (release : ι → σ → σ) {meets : π → σ → Prop} {i : ι}
    {x y : Steps π σ ε α} {s' : σ} (hprogram : c.programs i = some x)
    (h : Steps.Comes meets x c.shared y s') :
    ∃ n, Evleda.replay (Parties.after release) c (List.replicate n (.step i) ++ [.crash i]) =
      ⟨release i s', update c.programs i none⟩ := by
  obtain ⟨n, hn, -⟩ := turns_of_comes release (fun _ => meets) hprogram h
  have hleft : (Parties.mk s' (update c.programs i (some y))).programs i = some y :=
    update_self i _ _
  refine ⟨n, ?_⟩
  rw [Replay.snoc, hn, after_crash release hleft, update_idem]

/-- A party that is given one turn after the other does what it does alone. -/
theorem replay_alone (release : ι → σ → σ) {i : ι} (x : Steps π σ ε α) (c : Parties ι π σ ε α)
    (h : c.programs i = some x) :
    ∃ n, Evleda.replay (Parties.after release) c (List.replicate n (.step i)) =
      ⟨(x.alone.run c.shared).2,
        update c.programs i (some (.done (x.alone.run c.shared).1))⟩ := by
  obtain ⟨n, hn, -⟩ := turns_of_comes release (fun _ _ _ => True) h (x.comes_alone c.shared)
  exact ⟨n, hn⟩

end Parties

end Evleda
