/-
Searches that correct their labels.

A search gives states a cost and a parent.  When it takes a state up, it offers each
neighbour the cost of coming from there, and a neighbour takes the offer if it is lower
than what it has.  In what order states are taken up, and how often, is left open.

What carries through all of that is the cost at which a state was last taken up.  Whatever
hangs on the state has exactly the cost that was offered then, and no neighbour has a
higher one.  So costs fall along the parents, and no edge is lighter than the piece of a
chain between its ends.
-/
import Evleda.Lib.Collections
import Mathlib.Algebra.Order.Monoid.Defs
import Mathlib.Order.WellFounded

namespace Evleda

/-- What a search knows: the cost of each state that it has reached, and where it came from. -/
structure Labels (σ κ : Type*) where
  costs : Dict σ κ
  parents : Dict σ (Option σ)

namespace Labels

variable {σ κ : Type*} [DecidableEq σ]

def assign (labels : Labels σ κ) (p s : σ) (cost : κ) : Labels σ κ :=
  ⟨labels.costs.set s cost, labels.parents.set s (some p)⟩

/-- Follow the parents back to a root; a chain longer than the fuel is not followed to its end. -/
def traceback (parents : Dict σ (Option σ)) : Nat → σ → Option (List σ)
  | 0, _ => none
  | fuel + 1, s =>
      match parents s with
      | none => none
      | some none => some [s]
      | some (some p) => (traceback parents fuel p).map (s :: ·)

/-- The chain of parents from a state to a root. -/
inductive Traces (parents : Dict σ (Option σ)) : σ → List σ → Prop
  | root {s : σ} (h : parents s = some none) : Traces parents s [s]
  | step {s p : σ} {chain : List σ} (h : parents s = some (some p))
      (hchain : Traces parents p chain) : Traces parents s (s :: chain)

omit [DecidableEq σ] in
theorem Traces.traceback {parents : Dict σ (Option σ)} {s : σ} {chain : List σ}
    (h : Traces parents s chain) {fuel : Nat} (hfuel : chain.length ≤ fuel) :
    traceback parents fuel s = some chain := by
  induction h generalizing fuel with
  | root h =>
      obtain ⟨room, rfl⟩ := Nat.exists_eq_succ_of_ne_zero (Nat.ne_of_gt hfuel)
      unfold Labels.traceback
      rw [h]
  | step h _ ih =>
      obtain ⟨room, rfl⟩ := Nat.exists_eq_succ_of_ne_zero (Nat.ne_of_gt (Nat.zero_lt_of_lt hfuel))
      unfold Labels.traceback
      rw [h]
      dsimp only
      rw [ih (Nat.le_of_succ_le_succ hfuel)]
      rfl

variable [LinearOrder κ]

/-- Offer a state a cost, coming from `p`. -/
def offer (labels : Labels σ κ) (p s : σ) (cost : κ) : Labels σ κ :=
  match labels.costs s with
  | none => labels.assign p s cost
  | some prior => if prior ≤ cost then labels else labels.assign p s cost

def takeUp [Add κ] (labels : Labels σ κ) (weight : σ → σ → κ) (p : σ) (cost : κ)
    (neighbours : List σ) : Labels σ κ :=
  neighbours.foldl (fun labels s => labels.offer p s (cost + weight p s)) labels

section Offers

variable {labels : Labels σ κ} {p s t : σ} {cost : κ}

theorem offer_of_ne (labels : Labels σ κ) (p : σ) (cost : κ) (h : t ≠ s) :
    (labels.offer p s cost).costs t = labels.costs t ∧
      (labels.offer p s cost).parents t = labels.parents t := by
  have hassign : (labels.assign p s cost).costs t = labels.costs t ∧
      (labels.assign p s cost).parents t = labels.parents t :=
    ⟨Dict.set_of_ne _ _ h, Dict.set_of_ne _ _ h⟩
  unfold offer
  split
  · exact hassign
  · split
    · exact ⟨rfl, rfl⟩
    · exact hassign

/-- What becomes of a state that is offered a cost. -/
structure Taken (labels labels' : Labels σ κ) (p s : σ) (cost : κ) : Prop where
  costs : labels'.costs s = some cost
  parents : labels'.parents s = some (some p)
  lower : ∀ prior, labels.costs s = some prior → cost < prior

structure Refused (labels labels' : Labels σ κ) (s : σ) (cost : κ) : Prop where
  costs : labels'.costs s = labels.costs s
  parents : labels'.parents s = labels.parents s
  noHigher : ∃ prior, labels.costs s = some prior ∧ prior ≤ cost

theorem offer_self (labels : Labels σ κ) (p s : σ) (cost : κ) :
    Taken labels (labels.offer p s cost) p s cost ∨
      Refused labels (labels.offer p s cost) s cost := by
  have hassign : (labels.assign p s cost).costs s = some cost ∧
      (labels.assign p s cost).parents s = some (some p) :=
    ⟨Dict.set_self _ _ _, Dict.set_self _ _ _⟩
  unfold offer
  cases hprior : labels.costs s with
  | none => exact Or.inl ⟨hassign.1, hassign.2, fun _ h => by rw [hprior] at h; cases h⟩
  | some prior =>
      dsimp only
      by_cases hle : prior ≤ cost
      · rw [if_pos hle]
        exact Or.inr ⟨rfl, rfl, prior, hprior, hle⟩
      · rw [if_neg hle]
        refine Or.inl ⟨hassign.1, hassign.2, fun other hother => ?_⟩
        rw [hprior, Option.some.injEq] at hother
        rw [← hother]
        exact not_le.mp hle

variable [Add κ] {weight : σ → σ → κ} {neighbours : List σ}

theorem takeUp_of_not_mem (labels : Labels σ κ) (weight : σ → σ → κ) (p : σ) (cost : κ)
    (h : s ∉ neighbours) :
    (labels.takeUp weight p cost neighbours).costs s = labels.costs s ∧
      (labels.takeUp weight p cost neighbours).parents s = labels.parents s := by
  induction neighbours generalizing labels with
  | nil => exact ⟨rfl, rfl⟩
  | cons t rest ih =>
      rw [List.mem_cons, not_or] at h
      obtain ⟨hcosts, hparents⟩ := ih (labels.offer p t (cost + weight p t)) h.2
      obtain ⟨hcosts', hparents'⟩ := offer_of_ne labels p (cost + weight p t) h.1
      exact ⟨hcosts.trans hcosts', hparents.trans hparents'⟩

theorem takeUp_of_mem (labels : Labels σ κ) (weight : σ → σ → κ) (p : σ) (cost : κ)
    (hnodup : neighbours.Nodup) (h : s ∈ neighbours) :
    Taken labels (labels.takeUp weight p cost neighbours) p s (cost + weight p s) ∨
      Refused labels (labels.takeUp weight p cost neighbours) s (cost + weight p s) := by
  induction neighbours generalizing labels with
  | nil => cases h
  | cons t rest ih =>
      rw [List.nodup_cons] at hnodup
      rcases List.mem_cons.mp h with rfl | hrest
      · obtain ⟨hcosts, hparents⟩ := takeUp_of_not_mem
          (labels.offer p s (cost + weight p s)) weight p cost hnodup.1
        rcases offer_self labels p s (cost + weight p s) with htaken | hrefused
        · exact Or.inl ⟨hcosts.trans htaken.costs, hparents.trans htaken.parents, htaken.lower⟩
        · exact Or.inr ⟨hcosts.trans hrefused.costs, hparents.trans hrefused.parents,
            hrefused.noHigher⟩
      · have hne : s ≠ t := fun heq => hnodup.1 (heq ▸ hrest)
        obtain ⟨hcosts, hparents⟩ := offer_of_ne labels p (cost + weight p t) hne
        rcases ih (labels.offer p t (cost + weight p t)) hnodup.2 hrest with
          htaken | hrefused
        · refine Or.inl ⟨htaken.costs, htaken.parents, fun prior hprior => ?_⟩
          exact htaken.lower prior (hcosts.trans hprior)
        · obtain ⟨prior, hprior, hle⟩ := hrefused.noHigher
          exact Or.inr ⟨hrefused.costs.trans hcosts, hrefused.parents.trans hparents, prior,
            hcosts.symm.trans hprior, hle⟩

end Offers

/-! ### What a search keeps true -/

/-- The edges of a search: to different states, none to itself, all of them of some weight. -/
structure Weighted [Add κ] [Zero κ] (next : σ → List σ) (weight : σ → σ → κ) : Prop where
  distinct : ∀ p, (next p).Nodup
  irreflexive : ∀ p, p ∉ next p
  positive : ∀ p, ∀ s ∈ next p, 0 < weight p s

/-- The labels, after states have been taken up at the costs given. -/
structure Correct [Add κ] [Zero κ] (next : σ → List σ) (weight : σ → σ → κ) (roots : Set σ)
    (labels : Labels σ κ) (takenAt : Dict σ κ) : Prop where
  nonneg : ∀ s c, labels.costs s = some c → 0 ≤ c
  root : ∀ s ∈ roots, labels.costs s = some 0 ∧ labels.parents s = some none
  rooted : ∀ s, labels.parents s = some none → s ∈ roots
  labelled : ∀ s c, labels.costs s = some c → ∃ p, labels.parents s = some p
  hangs : ∀ s p, labels.parents s = some (some p) → ∃ e, takenAt p = some e ∧ s ∈ next p ∧
    labels.costs s = some (e + weight p s)
  fallen : ∀ p e, takenAt p = some e → ∃ c, labels.costs p = some c ∧ c ≤ e
  offered : ∀ p e, takenAt p = some e → ∀ s ∈ next p, ∃ c, labels.costs s = some c ∧
    c ≤ e + weight p s

namespace Correct

variable [AddCommMonoid κ] [IsOrderedCancelAddMonoid κ] {next : σ → List σ} {weight : σ → σ → κ}
  {roots : Set σ} {labels : Labels σ κ} {takenAt : Dict σ κ} {p s : σ} {c e w : κ}

section

omit [IsOrderedCancelAddMonoid κ]

theorem takeUp_cases (labels : Labels σ κ) (hw : Weighted next weight) (p : σ) (e : κ) (s : σ) :
    (s ∈ next p ∧ Taken labels (labels.takeUp weight p e (next p)) p s (e + weight p s)) ∨
    ((labels.takeUp weight p e (next p)).costs s = labels.costs s ∧
      (labels.takeUp weight p e (next p)).parents s = labels.parents s ∧
      (s ∈ next p → ∃ prior, labels.costs s = some prior ∧ prior ≤ e + weight p s)) := by
  by_cases hmem : s ∈ next p
  · rcases takeUp_of_mem labels weight p e (hw.distinct p) hmem with htaken | hrefused
    · exact Or.inl ⟨hmem, htaken⟩
    · exact Or.inr ⟨hrefused.costs, hrefused.parents, fun _ => hrefused.noHigher⟩
  · obtain ⟨hcosts, hparents⟩ := takeUp_of_not_mem labels weight p e hmem
    exact Or.inr ⟨hcosts, hparents, fun h => absurd h hmem⟩

theorem takeUp_le (hw : Weighted next weight) (p : σ) (e : κ) (hc : labels.costs s = some c) :
    ∃ c', (labels.takeUp weight p e (next p)).costs s = some c' ∧ c' ≤ c := by
  rcases takeUp_cases labels hw p e s with ⟨-, htaken⟩ | ⟨hcosts, -, -⟩
  · exact ⟨_, htaken.costs, (htaken.lower c hc).le⟩
  · exact ⟨c, hcosts.trans hc, le_refl c⟩

end

/-- **Taking a state up at its cost keeps the labels correct.** -/
theorem takeUp (h : Correct next weight roots labels takenAt) (hw : Weighted next weight)
    (hp : labels.costs p = some e) :
    Correct next weight roots (labels.takeUp weight p e (next p)) (takenAt.set p e) := by
  have he : 0 ≤ e := h.nonneg p e hp
  have hkept : (labels.takeUp weight p e (next p)).costs p = some e :=
    (takeUp_of_not_mem labels weight p e (hw.irreflexive p)).1.trans hp
  have hoffer : ∀ s ∈ next p, 0 < e + weight p s := fun s hs =>
    add_pos_of_nonneg_of_pos he (hw.positive p s hs)
  constructor
  case nonneg =>
    intro s c hc
    rcases takeUp_cases labels hw p e s with ⟨hmem, htaken⟩ | ⟨hcosts, -, -⟩
    · rw [htaken.costs, Option.some.injEq] at hc
      rw [← hc]
      exact (hoffer s hmem).le
    · exact h.nonneg s c (hcosts.symm.trans hc)
  case root =>
    intro s hs
    obtain ⟨hzero, hnone⟩ := h.root s hs
    rcases takeUp_cases labels hw p e s with ⟨hmem, htaken⟩ | ⟨hcosts, hparents, -⟩
    · exact absurd (htaken.lower 0 hzero) (hoffer s hmem).not_gt
    · exact ⟨hcosts.trans hzero, hparents.trans hnone⟩
  case rooted =>
    intro s hs
    rcases takeUp_cases labels hw p e s with ⟨-, htaken⟩ | ⟨-, hparents, -⟩
    · rw [htaken.parents] at hs
      cases hs
    · exact h.rooted s (hparents.symm.trans hs)
  case labelled =>
    intro s c hc
    rcases takeUp_cases labels hw p e s with ⟨-, htaken⟩ | ⟨hcosts, hparents, -⟩
    · exact ⟨_, htaken.parents⟩
    · rw [hparents]
      exact h.labelled s c (hcosts.symm.trans hc)
  case hangs =>
    intro s q hq
    rcases takeUp_cases labels hw p e s with ⟨hmem, htaken⟩ |
      ⟨hcosts, hparents, hnoHigher⟩
    · rw [htaken.parents, Option.some.injEq, Option.some.injEq] at hq
      subst hq
      exact ⟨e, Dict.set_self _ _ _, hmem, htaken.costs⟩
    · obtain ⟨e', he', hmem, hcost⟩ := h.hangs s q (hparents.symm.trans hq)
      by_cases hqp : q = p
      · -- it hangs on the state taken up, at the cost of the last time, which was no higher
        subst hqp
        obtain ⟨c, hc, hle⟩ := h.fallen q e' he'
        rw [hp, Option.some.injEq] at hc
        subst hc
        obtain ⟨prior, hprior, hlow⟩ := hnoHigher hmem
        rw [hcost, Option.some.injEq] at hprior
        subst hprior
        have hsame : e' + weight q s = e + weight q s :=
          le_antisymm hlow (add_le_add_left hle _)
        refine ⟨e, Dict.set_self _ _ _, hmem, ?_⟩
        rw [hcosts, hcost, hsame]
      · exact ⟨e', (Dict.set_of_ne _ _ hqp).trans he', hmem, hcosts.trans hcost⟩
  case fallen =>
    intro q e' he'
    rcases Dict.set_eq_some he' with ⟨rfl, rfl⟩ | ⟨-, hold⟩
    · exact ⟨_, hkept, le_refl _⟩
    · obtain ⟨c, hc, hle⟩ := h.fallen q e' hold
      obtain ⟨c', hc', hle'⟩ := takeUp_le hw p e hc
      exact ⟨c', hc', hle'.trans hle⟩
  case offered =>
    intro q e' he' s hs
    rcases Dict.set_eq_some he' with ⟨rfl, rfl⟩ | ⟨-, hold⟩
    · rcases takeUp_cases labels hw q e' s with ⟨-, htaken⟩ | ⟨hcosts, -, hnoHigher⟩
      · exact ⟨_, htaken.costs, le_refl _⟩
      · obtain ⟨prior, hprior, hle⟩ := hnoHigher hs
        exact ⟨prior, hcosts.trans hprior, hle⟩
    · obtain ⟨c, hc, hle⟩ := h.offered q e' hold s hs
      obtain ⟨c', hc', hle'⟩ := takeUp_le hw p e hc
      exact ⟨c', hc', hle'.trans hle⟩

/-! ### Chains of parents -/

omit [DecidableEq σ] in
theorem lt_of_parent (h : Correct next weight roots labels takenAt) (hw : Weighted next weight)
    (hp : labels.parents s = some (some p)) (hc : labels.costs s = some c) :
    ∃ c', labels.costs p = some c' ∧ c' < c := by
  obtain ⟨e, he, hmem, hcost⟩ := h.hangs s p hp
  obtain ⟨c', hc', hle⟩ := h.fallen p e he
  rw [hc, Option.some.injEq] at hcost
  subst hcost
  exact ⟨c', hc', lt_of_le_of_lt hle (lt_add_of_pos_right e (hw.positive p s hmem))⟩

omit [DecidableEq σ] in
/-- **Chains of parents end at a root.** -/
theorem exists_traces [WellFoundedLT κ] (h : Correct next weight roots labels takenAt)
    (hw : Weighted next weight) (hc : labels.costs s = some c) :
    ∃ chain, Traces labels.parents s chain := by
  induction c using WellFoundedLT.induction generalizing s with
  | _ c ih =>
      obtain ⟨origin, horigin⟩ := h.labelled s c hc
      cases origin with
      | none => exact ⟨[s], .root horigin⟩
      | some p =>
          obtain ⟨c', hc', hlt⟩ := h.lt_of_parent hw horigin hc
          obtain ⟨chain, hchain⟩ := ih c' hlt hc'
          exact ⟨s :: chain, .step horigin hchain⟩

end Correct

/-- From a state up to another along the parents, and the weight of the way. -/
inductive Trail [Add κ] (parents : Dict σ (Option σ)) (weight : σ → σ → κ) : σ → κ → σ → Prop
  | one {p s : σ} (h : parents s = some (some p)) : Trail parents weight p (weight p s) s
  | more {p q s : σ} {w : κ} (hway : Trail parents weight p w q) (h : parents s = some (some q)) :
      Trail parents weight p (w + weight q s) s

omit [DecidableEq σ] [LinearOrder κ] in
/-- There is a way from every state of a chain up to its end. -/
theorem Traces.trail [Add κ] {parents : Dict σ (Option σ)} {s p : σ} {chain : List σ}
    (h : Traces parents s chain) (weight : σ → σ → κ) (hp : p ∈ chain.tail) :
    ∃ w, Trail parents weight p w s := by
  induction h with
  | root => cases hp
  | step hq hchain ih =>
      rw [List.tail_cons] at hp
      cases hchain with
      | root =>
          rw [List.mem_singleton] at hp
          subst hp
          exact ⟨_, .one hq⟩
      | step hq' hrest =>
          rcases List.mem_cons.mp hp with rfl | hp
          · exact ⟨_, .one hq⟩
          · obtain ⟨w, hway⟩ := ih hp
            exact ⟨_, .more hway hq⟩

namespace Correct

variable [AddCommMonoid κ] [IsOrderedCancelAddMonoid κ] {next : σ → List σ} {weight : σ → σ → κ}
  {roots : Set σ} {labels : Labels σ κ} {takenAt : Dict σ κ} {p s : σ} {c e w : κ}

omit [DecidableEq σ] in
/-- A way starts at a state that has been taken up, and costs what it weighs. -/
theorem le_of_trail (h : Correct next weight roots labels takenAt)
    (hway : Trail labels.parents weight p w s) :
    ∃ e c, takenAt p = some e ∧ labels.costs s = some c ∧ e + w ≤ c := by
  induction hway with
  | one hp =>
      obtain ⟨e, he, -, hcost⟩ := h.hangs _ _ hp
      exact ⟨e, _, he, hcost, le_refl _⟩
  | more hway hq ih =>
      obtain ⟨e, c, he, hc, hle⟩ := ih
      obtain ⟨e', he', -, hcost⟩ := h.hangs _ _ hq
      obtain ⟨c', hc', hle'⟩ := h.fallen _ e' he'
      rw [hc, Option.some.injEq] at hc'
      subst hc'
      refine ⟨e, _, he, hcost, ?_⟩
      rw [← add_assoc]
      exact add_le_add_left (hle.trans hle') _

omit [DecidableEq σ] in
/-- **No edge is lighter than the piece of a chain between its ends.** -/
theorem no_shortcut (h : Correct next weight roots labels takenAt)
    (hway : Trail labels.parents weight p w s) (hedge : s ∈ next p) : w ≤ weight p s := by
  obtain ⟨e, c, he, hc, hle⟩ := h.le_of_trail hway
  obtain ⟨c', hc', hle'⟩ := h.offered p e he s hedge
  rw [hc, Option.some.injEq] at hc'
  subst hc'
  exact le_of_add_le_add_left (hle.trans hle')

end Correct

end Labels

end Evleda
