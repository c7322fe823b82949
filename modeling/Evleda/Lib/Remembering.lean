/-
What each party has seen.

An assumption about a schedule often speaks of the past: nothing changed since the
party looked.  The shared state does not tell, so a copy of the computation is run
in which each step also writes down the state that its party found at the place
where it stands.  The copy takes the same steps and reads nothing of what was
written down; what is proved of the copy is proved of the computation.
-/
import Evleda.Lib.Interleaving

namespace Evleda

open Function

/-- A shared state, with the state in which each party last stood at a place. -/
structure Remembered (ι π σ : Type) where
  now : σ
  seen : ι → π → Option σ

namespace Remembered

variable {ι π σ : Type} [DecidableEq ι] [DecidableEq π]

/-- A step of a party from a place: it remembers what it found there. -/
def moved (i : ι) (place : π) (s' : σ) (s : Remembered ι π σ) : Remembered ι π σ :=
  ⟨s', update s.seen i (update (s.seen i) place (some s.now))⟩

@[simp] theorem moved_now (i : ι) (place : π) (s' : σ) (s : Remembered ι π σ) :
    (s.moved i place s').now = s' := rfl

@[simp] theorem moved_seen (i : ι) (place : π) (s' : σ) (s : Remembered ι π σ) :
    (s.moved i place s').seen i place = some s.now := by
  show update s.seen i _ i place = _
  rw [update_self, update_self]

theorem moved_seen_of_ne {i : ι} {place place' : π} {s' : σ} {s : Remembered ι π σ}
    (h : place' ≠ place) : (s.moved i place s').seen i place' = s.seen i place' := by
  show update s.seen i _ i place' = _
  rw [update_self, update_of_ne h]

theorem moved_seen_others {i j : ι} {place : π} {s' : σ} {s : Remembered ι π σ} (h : j ≠ i) :
    (s.moved i place s').seen j = s.seen j :=
  update_of_ne h ..

end Remembered

namespace Steps

variable {ι π σ ε α β : Type} [DecidableEq ι] [DecidableEq π]

def remembering (i : ι) : Steps π σ ε α → Steps π (Remembered ι π σ) ε α
  | done result => done result
  | step place move rest =>
      step place (fun s => s.moved i place (move s.now)) fun s => (rest s.now).remembering i

/-- From a state in which a party took its last step, it is safe, as far as its steps stand where
`meets` holds of what is shared and of what it has seen. -/
def Guarded (i : ι) (rely guar : Remembered ι π σ → Remembered ι π σ → Prop)
    (meets : π → Remembered ι π σ → Prop) (post : Except ε α → Remembered ι π σ → Prop)
    (x : Steps π σ ε α) (s : Remembered ι π σ) : Prop :=
  (x.remembering i).Safe rely guar meets post s

namespace Guarded

variable {i : ι} {rely guar : Remembered ι π σ → Remembered ι π σ → Prop}
  {meets : π → Remembered ι π σ → Prop} {post : Except ε α → Remembered ι π σ → Prop}
  {x : Steps π σ ε α} {s : Remembered ι π σ}

theorem remembering_bind (x : Steps π σ ε α) (f : α → Steps π σ ε β) :
    (x >>= f).remembering i = x.remembering i >>= fun a => (f a).remembering i := by
  induction x with
  | done result =>
      cases result with
      | ok a => rfl
      | error e => rfl
  | step place move rest ih =>
      exact congrArg (step place _) (funext fun s => ih s.now)

theorem bind (hrefl : ∀ a, rely a a) {f : α → Steps π σ ε β}
    {post : Except ε β → Remembered ι π σ → Prop}
    (h : Guarded i rely guar meets (fun r s =>
      match r with
      | .ok a => Guarded i rely guar meets post (f a) s
      | .error e => post (.error e) s) x s) : Guarded i rely guar meets post (x >>= f) s := by
  unfold Guarded
  rw [remembering_bind]
  exact Safe.bind hrefl h

/-- A check that passes goes on, and one that does not raises. -/
theorem check_bind {y : Except ε β} {f : β → Steps π σ ε α}
    (hok : ∀ b, y = .ok b → Guarded i rely guar meets post (f b) s)
    (herror : ∀ e s', y = .error e → rely s s' → post (.error e) s') :
    Guarded i rely guar meets post (check y >>= f) s := by
  cases y with
  | ok b => exact hok b rfl
  | error e => exact fun m hm => herror e m rfl hm

theorem atomic_bind {place : π} {y : Effect σ ε β} {f : β → Steps π σ ε α}
    (h : ∀ m, rely s m → meets place m → guar m (m.moved i place (y.run m.now).2) ∧
      (∀ b, (y.run m.now).1 = .ok b →
        Guarded i rely guar meets post (f b) (m.moved i place (y.run m.now).2)) ∧
      ∀ e s', (y.run m.now).1 = .error e → rely (m.moved i place (y.run m.now).2) s' →
        post (.error e) s') :
    Guarded i rely guar meets post (atomic place y >>= f) s := by
  intro m hm hmeets
  obtain ⟨hguar, hok, herror⟩ := h m hm hmeets
  refine ⟨hguar, ?_⟩
  have hrest : Guarded i rely guar meets post ((Steps.done (y.run m.now).1 : Steps π σ ε β) >>= f)
      (m.moved i place (y.run m.now).2) := by
    cases hresult : (y.run m.now).1 with
    | ok b => exact hok b hresult
    | error e => exact fun m' hm' => herror e m' hresult hm'
  exact hrest

theorem read_bind {place : π} {g : σ → β} {f : β → Steps π σ ε α}
    (h : ∀ m, rely s m → meets place m → guar m (m.moved i place m.now) ∧
      Guarded i rely guar meets post (f (g m.now)) (m.moved i place m.now)) :
    Guarded i rely guar meets post (Steps.atomic place (Effect.read g) >>= f) s :=
  h

theorem write_bind {place : π} {g : σ → σ} {f : Unit → Steps π σ ε α}
    (h : ∀ m, rely s m → meets place m → guar m (m.moved i place (g m.now)) ∧
      Guarded i rely guar meets post (f ()) (m.moved i place (g m.now))) :
    Guarded i rely guar meets post (Steps.atomic place (Effect.write g) >>= f) s :=
  h

theorem handling (hrefl : ∀ a, rely a a) {handler : ε → Steps π σ ε α}
    (h : Guarded i rely guar meets (fun r s =>
      match r with
      | .ok a => post (.ok a) s
      | .error e => Guarded i rely guar meets post (handler e) s) x s) :
    Guarded i rely guar meets post (x.handling handler) s := by
  have hcopy : (x.handling handler).remembering i =
      (x.remembering i).handling fun e => (handler e).remembering i := by
    clear h
    induction x with
    | done result =>
        cases result with
        | ok a => rfl
        | error e => rfl
    | step place move rest ih =>
        exact congrArg (step place _) (funext fun s => ih s.now)
  unfold Guarded
  rw [hcopy]
  exact Safe.handling hrefl h

end Guarded

end Steps

namespace Parties

variable {ι π σ ε α : Type} [DecidableEq ι] [DecidableEq π] (release : ι → σ → σ)

/-- The parties that remember, before they have seen anything. -/
def remembering (c : Parties ι π σ ε α) : Parties ι π (Remembered ι π σ) ε α :=
  ⟨⟨c.shared, fun _ _ => none⟩, fun i => (c.programs i).map (·.remembering i)⟩

/-- What a party held when it stopped is given back, and what was seen was seen. -/
def releasing (i : ι) (s : Remembered ι π σ) : Remembered ι π σ :=
  { s with now := release i s.now }

/-- The parties that remember are where the parties are. -/
structure Copies (c' : Parties ι π (Remembered ι π σ) ε α) (c : Parties ι π σ ε α) : Prop where
  shared : c'.shared.now = c.shared
  programs : ∀ i, c'.programs i = (c.programs i).map (·.remembering i)

variable {release} {c : Parties ι π σ ε α} {c' : Parties ι π (Remembered ι π σ) ε α}

theorem Copies.after (h : Copies c' c) (turn : Turn ι) :
    Copies (c'.after (releasing release) turn) (c.after release turn) := by
  cases turn with
  | step i =>
      cases hprogram : c.programs i with
      | none =>
          have hcopy : c'.programs i = none := by
            rw [h.programs, hprogram]
            rfl
          rw [Parties.after, Parties.after, hprogram, hcopy]
          exact h
      | some x =>
          cases x with
          | done result =>
              have hcopy : c'.programs i = some (.done result) := by
                rw [h.programs, hprogram]
                rfl
              rw [Parties.after, Parties.after, hprogram, hcopy]
              exact h
          | step place move rest =>
              have hcopy : c'.programs i =
                  some ((Steps.step place move rest).remembering i) := by
                rw [h.programs, hprogram]
                rfl
              rw [after_step release hprogram, after_step (releasing release) hcopy]
              refine ⟨congrArg move h.shared, fun j => ?_⟩
              dsimp only
              by_cases hij : j = i
              · subst hij
                rw [update_self, update_self, h.shared]
                rfl
              · rw [update_of_ne hij, update_of_ne hij]
                exact h.programs j
  | crash i =>
      cases hprogram : c.programs i with
      | none =>
          have hcopy : c'.programs i = none := by
            rw [h.programs, hprogram]
            rfl
          rw [Parties.after, Parties.after, hprogram, hcopy]
          exact h
      | some x =>
          have hcopy : c'.programs i = some (x.remembering i) := by
            rw [h.programs, hprogram]
            rfl
          rw [Parties.after, Parties.after, hprogram, hcopy]
          refine ⟨congrArg (release i) h.shared, fun j => ?_⟩
          dsimp only
          by_cases hij : j = i
          · subst hij
            rw [update_self, update_self]
            rfl
          · rw [update_of_ne hij, update_of_ne hij]
            exact h.programs j

/-- **The copy goes where the computation goes.** -/
theorem remembering_copies (release : ι → σ → σ) (c : Parties ι π σ ε α) (turns : List (Turn ι)) :
    Copies (Evleda.replay (Parties.after (releasing release)) c.remembering turns)
      (Evleda.replay (Parties.after release) c turns) := by
  induction turns using List.reverseRecOn with
  | nil => exact ⟨rfl, fun _ => rfl⟩
  | append_singleton turns turn ih =>
      rw [Replay.snoc, Replay.snoc]
      exact ih.after turn

theorem Copies.step (h : Copies c' c) {i : ι} {place : π} {move : Remembered ι π σ → Remembered ι π σ}
    {rest : Remembered ι π σ → Steps π (Remembered ι π σ) ε α}
    (hprogram : c'.programs i = some (.step place move rest)) :
    ∃ move' rest', c.programs i = some (.step place move' rest') ∧
      move c'.shared = c'.shared.moved i place (move' c.shared) := by
  rw [h.programs, Option.map_eq_some_iff] at hprogram
  obtain ⟨x, hx, hcopy⟩ := hprogram
  cases x with
  | done result => cases hcopy
  | step place' move' rest' =>
      obtain ⟨rfl, rfl, -⟩ := Steps.step.inj hcopy
      refine ⟨move', rest', hx, ?_⟩
      dsimp only
      rw [h.shared]

/-- What holds of the places where the steps stand holds of what was seen there. -/
theorem remembering_throughout (meets : ι → π → σ → Prop) {turns : List (Turn ι)}
    {meets' : ι → π → Remembered ι π σ → Prop}
    (h : Replay.Throughout (Parties.after release) (Parties.Meets meets) c turns)
    (hseen : ∀ i place s, meets i place s.now → (∀ p, ∀ t ∈ s.seen i p, meets i p t) →
      meets' i place s) :
    Replay.Throughout (Parties.after (releasing release)) (Parties.Meets meets') c.remembering
      turns := by
  suffices hboth : Replay.Throughout (Parties.after (releasing release)) (Parties.Meets meets')
      c.remembering turns ∧ ∀ i p, ∀ t ∈ (Evleda.replay (Parties.after (releasing release))
        c.remembering turns).shared.seen i p, meets i p t from hboth.1
  induction turns using List.reverseRecOn with
  | nil => exact ⟨trivial, fun _ _ _ ht => by cases ht⟩
  | append_singleton turns turn ih =>
      obtain ⟨hturns, hturn⟩ := Replay.throughout_snoc.mp h
      obtain ⟨hthroughout, hpast⟩ := ih hturns
      have hcopies := remembering_copies release c turns
      rw [Replay.throughout_snoc, Replay.snoc]
      refine ⟨⟨hthroughout, ?_⟩, ?_⟩
      · cases turn with
        | step i =>
            intro place move rest hprogram
            obtain ⟨move', rest', hstep, -⟩ := hcopies.step hprogram
            refine hseen i place _ ?_ (hpast i)
            rw [hcopies.shared]
            exact hturn place move' rest' hstep
        | crash i => exact trivial
      · intro j p t ht
        obtain hsame | ⟨i, place, move, rest, rfl, hprogram, hafter⟩ | ⟨i, x, rfl, -, hafter⟩ :=
          after_cases (releasing release) (Evleda.replay (Parties.after (releasing release))
            c.remembering turns) turn
        · rw [hsame] at ht
          exact hpast j p t ht
        · obtain ⟨move', rest', hstep, hmoved⟩ := hcopies.step hprogram
          rw [hafter] at ht
          dsimp only at ht
          rw [hmoved] at ht
          by_cases hij : j = i
          · subst hij
            by_cases hplace : p = place
            · subst hplace
              rw [Remembered.moved_seen, Option.mem_some_iff] at ht
              rw [← ht, hcopies.shared]
              exact hturn p move' rest' hstep
            · rw [Remembered.moved_seen_of_ne hplace] at ht
              exact hpast j p t ht
          · rw [Remembered.moved_seen_others hij] at ht
            exact hpast j p t ht
        · rw [hafter] at ht
          exact hpast j p t ht

end Parties

end Evleda
