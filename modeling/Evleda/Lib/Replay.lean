/-
Replaying a list of events, and the last moment at which something happened.

A state machine here is a total function `next` from a state and an event to a
state; an event that the program refuses leaves the state as it was.  The state
after a history is the fold of `next` over it, and what holds of every history
is proved from what one more event preserves.

The second part is about sentences such as "the last time the door was opened,
the alarm was off".  The moment is a way to cut the history in two at an event;
it is the last one when nothing after it is such a moment again.
-/
import Mathlib.Data.List.Induction

namespace Evleda

variable {σ η : Type*} (next : σ → η → σ)

/-- The state after a list of events. -/
def replay (s : σ) (events : List η) : σ := events.foldl next s

namespace Replay

variable {next}

@[simp] theorem nil (s : σ) : replay next s [] = s := rfl

theorem cons {s s' : σ} {e : η} (h : next s e = s') (events : List η) :
    replay next s (e :: events) = replay next s' events := by
  rw [← h]
  rfl

theorem append (s : σ) (first second : List η) :
    replay next s (first ++ second) = replay next (replay next s first) second := by
  unfold replay
  rw [List.foldl_append]

theorem snoc (s : σ) (events : List η) (e : η) :
    replay next s (events ++ [e]) = next (replay next s events) e := by
  rw [append]
  rfl

/-- What was observed along a history, event by event. -/
def observed {β : Type*} (next : σ → η → σ) (observe : σ → η → Option β) :
    σ → List η → List β
  | _, [] => []
  | s, e :: events => (observe s e).toList ++ observed next observe (next s e) events

theorem observed_snoc {β : Type*} {observe : σ → η → Option β} {s : σ} {events : List η} {e : η} :
    observed next observe s (events ++ [e]) =
      observed next observe s events ++ (observe (replay next s events) e).toList := by
  induction events generalizing s with
  | nil => simp [observed, replay]
  | cons x events ih =>
      simp only [List.cons_append, observed, ih, List.append_assoc]
      rfl

/-- Every event is allowed in the state in which it happens. -/
def Throughout (next : σ → η → σ) (Allowed : σ → η → Prop) : σ → List η → Prop
  | _, [] => True
  | s, e :: events => Allowed s e ∧ Throughout next Allowed (next s e) events

instance decidableThroughout (next : σ → η → σ) (Allowed : σ → η → Prop)
    [∀ s e, Decidable (Allowed s e)] : ∀ s events, Decidable (Throughout next Allowed s events)
  | _, [] => isTrue trivial
  | s, e :: events =>
      @instDecidableAnd _ _ _ (decidableThroughout next Allowed (next s e) events)

theorem throughout_of_forall {Allowed : σ → η → Prop} (h : ∀ s e, Allowed s e) (s : σ)
    (events : List η) : Throughout next Allowed s events := by
  induction events generalizing s with
  | nil => exact trivial
  | cons e events ih => exact ⟨h s e, ih _⟩

theorem Throughout.mono {Allowed Allowed' : σ → η → Prop} {s : σ} {events : List η}
    (h : Throughout next Allowed s events) (hweaker : ∀ s e, Allowed s e → Allowed' s e) :
    Throughout next Allowed' s events := by
  induction events generalizing s with
  | nil => exact trivial
  | cons e events ih => exact ⟨hweaker s e h.1, ih h.2⟩

theorem throughout_snoc {Allowed : σ → η → Prop} {s : σ} {events : List η} {e : η} :
    Throughout next Allowed s (events ++ [e]) ↔
      Throughout next Allowed s events ∧ Allowed (replay next s events) e := by
  induction events generalizing s with
  | nil => simp [Throughout, replay]
  | cons x events ih =>
      simp only [List.cons_append, Throughout, ih, and_assoc]
      rfl

theorem throughout_append {Allowed : σ → η → Prop} {s : σ} {first second : List η} :
    Throughout next Allowed s (first ++ second) ↔
      Throughout next Allowed s first ∧ Throughout next Allowed (replay next s first) second := by
  induction first generalizing s with
  | nil => simp [Throughout, replay]
  | cons x first ih =>
      simp only [List.cons_append, Throughout, ih, and_assoc]
      rfl

/-- What holds of the empty history and survives one more allowed event holds of every history
whose events are all allowed where they happen. -/
theorem history_induction {s : σ} {Allowed : σ → η → Prop} (P : List η → σ → Prop)
    (hnil : P [] s)
    (hsnoc : ∀ events e, P events (replay next s events) → Allowed (replay next s events) e →
      P (events ++ [e]) (next (replay next s events) e)) :
    ∀ events : List η, Throughout next Allowed s events → P events (replay next s events) := by
  intro events
  induction events using List.reverseRecOn with
  | nil => intro _; exact hnil
  | append_singleton events e ih =>
      intro hallowed
      obtain ⟨hevents, he⟩ := throughout_snoc.mp hallowed
      rw [snoc]
      exact hsnoc events e (ih hevents) he

/-- What holds at the start and survives every event holds after every history. -/
theorem invariant {s : σ} {P : σ → Prop} (hinit : P s) (hnext : ∀ s e, P s → P (next s e))
    (events : List η) : P (replay next s events) := by
  induction events using List.reverseRecOn with
  | nil => exact hinit
  | append_singleton events e ih =>
      rw [snoc]
      exact hnext _ e ih

end Replay

/-- `e`, met after the events `before`, is the last event of the history at which `Q` holds. -/
def LastMoment (s : σ) (events : List η) (Q : σ → η → Prop) (before : List η) (e : η) : Prop :=
  ∃ after, events = before ++ e :: after ∧ Q (replay next s before) e ∧
    ∀ middle e' rest, after = middle ++ e' :: rest →
      ¬ Q (replay next s (before ++ e :: middle)) e'

namespace LastMoment

variable {next} {s : σ} {events before : List η} {Q : σ → η → Prop} {e e' : η}

theorem holds (h : LastMoment next s events Q before e) : Q (replay next s before) e := by
  obtain ⟨_, -, hQ, -⟩ := h
  exact hQ

theorem mem (h : LastMoment next s events Q before e) : e ∈ events := by
  obtain ⟨after, rfl, -⟩ := h
  simp

/-- An event at which `Q` holds is the last such moment of the history it ends. -/
theorem now (h : Q (replay next s events) e) : LastMoment next s (events ++ [e]) Q events e := by
  refine ⟨[], rfl, h, ?_⟩
  intro middle e' rest hnil
  exact absurd hnil (by simp)

/-- An event at which `Q` does not hold leaves the last moment where it was. -/
theorem later (h : LastMoment next s events Q before e) (hnot : ¬ Q (replay next s events) e') :
    LastMoment next s (events ++ [e']) Q before e := by
  obtain ⟨after, rfl, hQ, hrest⟩ := h
  refine ⟨after ++ [e'], by simp, hQ, ?_⟩
  intro middle x rest hsplit
  rcases List.eq_nil_or_concat rest with rfl | ⟨rest', y, rfl⟩
  · obtain ⟨rfl, hx⟩ := List.append_inj' hsplit rfl
    rw [List.singleton_inj] at hx
    exact hx ▸ hnot
  · rw [List.concat_eq_append, ← List.cons_append, ← List.append_assoc] at hsplit
    obtain ⟨hsplit', -⟩ := List.append_inj' hsplit rfl
    exact hrest middle x rest' hsplit'

theorem snoc_cases (h : LastMoment next s (events ++ [e']) Q before e) :
    (before = events ∧ e = e') ∨
      (LastMoment next s events Q before e ∧ ¬ Q (replay next s events) e') := by
  obtain ⟨after, hsplit, hQ, hrest⟩ := h
  rcases List.eq_nil_or_concat after with rfl | ⟨after', y, rfl⟩
  · obtain ⟨rfl, he⟩ := List.append_inj' hsplit rfl
    exact Or.inl ⟨rfl, (List.singleton_inj.mp he).symm⟩
  · rw [List.concat_eq_append, ← List.cons_append, ← List.append_assoc] at hsplit
    obtain ⟨rfl, hy⟩ := List.append_inj' hsplit rfl
    obtain rfl := List.singleton_inj.mp hy
    refine Or.inr ⟨⟨after', rfl, hQ, ?_⟩, ?_⟩
    · intro middle x rest hafter
      refine hrest middle x (rest ++ [e']) ?_
      rw [hafter, List.concat_eq_append, List.append_assoc, List.cons_append]
    · exact hrest after' e' [] (by rw [List.concat_eq_append])

end LastMoment

end Evleda
