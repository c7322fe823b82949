/-
Collections that hold the same things in another order.

Two lists are rearranged when the elements of one can be put in an order in which
each is related to the element of the other at its place.  The relation says how
much an element may change on the way: nothing at all, and the lists are
permutations of each other, or the way it is written down.

What a program computes from a collection without looking at its order or at the
details the relation allows to change comes out the same, and the lemmas say so
for membership, for mapped and filtered lists and for conditions on pairs.
-/
import Evleda.Lib.Outcome
import Mathlib.Data.List.Pairwise

namespace Evleda

open Outcome

variable {α β γ : Type*}

/-- The elements of `l'`, up to `R`, in another order. -/
def Rearranged (R : α → α → Prop) (l l' : List α) : Prop :=
  ∃ middle, l.Perm middle ∧ List.Forall₂ R middle l'

namespace Rearranged

variable {R : α → α → Prop} {l l' : List α}

theorem mono {S : α → α → Prop} (h : Rearranged R l l') (himp : ∀ a ∈ l, ∀ b ∈ l', R a b → S a b) :
    Rearranged S l l' := by
  obtain ⟨middle, hperm, hall⟩ := h
  refine ⟨middle, hperm, ?_⟩
  have himp' : ∀ a ∈ middle, ∀ b ∈ l', R a b → S a b :=
    fun a ha => himp a (hperm.mem_iff.mpr ha)
  clear hperm himp
  induction hall with
  | nil => exact .nil
  | cons hab _ ih =>
      refine .cons (himp' _ (by simp) _ (by simp) hab) (ih ?_)
      intro a ha b hb
      exact himp' a (List.mem_cons_of_mem _ ha) b (List.mem_cons_of_mem _ hb)

theorem symm (hsymm : ∀ a b, R a b → R b a) (h : Rearranged R l l') : Rearranged R l' l := by
  obtain ⟨middle, hperm, hall⟩ := h
  have hback : List.Forall₂ R l' middle := (hall.imp hsymm).flip
  have hcomp : Relation.Comp (List.Forall₂ R) List.Perm l' l := ⟨middle, hback, hperm.symm⟩
  rw [List.forall₂_comp_perm_eq_perm_comp_forall₂] at hcomp
  exact hcomp

/-- Every element of the second list comes from one of the first. -/
theorem mem_right (h : Rearranged R l l') {b : α} (hb : b ∈ l') : ∃ a ∈ l, R a b := by
  obtain ⟨middle, hperm, hall⟩ := h
  obtain ⟨i, hi, rfl⟩ := List.getElem_of_mem hb
  have hi' : i < middle.length := hall.length_eq ▸ hi
  refine ⟨middle[i], hperm.mem_iff.mpr (List.getElem_mem hi'), ?_⟩
  exact List.Forall₂.get hall hi' hi

/-- Every element of the first list is found in the second. -/
theorem mem_left (h : Rearranged R l l') {a : α} (ha : a ∈ l) : ∃ b ∈ l', R a b := by
  obtain ⟨middle, hperm, hall⟩ := h
  obtain ⟨i, hi, rfl⟩ := List.getElem_of_mem (hperm.mem_iff.mp ha)
  have hi' : i < l'.length := hall.length_eq ▸ hi
  exact ⟨l'[i], List.getElem_mem hi', List.Forall₂.get hall hi hi'⟩

/-- What the relation does not change is the same collection. -/
theorem map_perm {f : α → β} (h : Rearranged R l l') (hf : ∀ a b, R a b → f a = f b) :
    (l.map f).Perm (l'.map f) := by
  obtain ⟨middle, hperm, hall⟩ := h
  have hsame : middle.map f = l'.map f := by
    induction hall generalizing l with
    | nil => rfl
    | cons hab _ ih => rw [List.map_cons, List.map_cons, hf _ _ hab, ih (List.Perm.refl _)]
  exact hsame ▸ hperm.map f

theorem filterMap_perm {f : α → Option β} (h : Rearranged R l l')
    (hf : ∀ a b, R a b → f a = f b) : (l.filterMap f).Perm (l'.filterMap f) := by
  have hcompose : ∀ items : List α, items.filterMap f = (items.map f).filterMap id := by
    intro items
    rw [List.filterMap_map]
    rfl
  rw [hcompose, hcompose]
  exact (h.map_perm hf).filterMap id

theorem flatMap_perm {f : α → List β} (h : Rearranged R l l')
    (hf : ∀ a b, R a b → (f a).Perm (f b)) : (l.flatMap f).Perm (l'.flatMap f) := by
  obtain ⟨middle, hperm, hall⟩ := h
  refine (hperm.flatMap_right f).trans ?_
  clear hperm
  induction hall with
  | nil => exact List.Perm.refl _
  | cons hab _ ih =>
      rw [List.flatMap_cons, List.flatMap_cons]
      exact (hf _ _ hab).append ih

theorem filter {p : α → Bool} (h : Rearranged R l l') (hp : ∀ a b, R a b → p a = p b) :
    Rearranged R (l.filter p) (l'.filter p) := by
  obtain ⟨middle, hperm, hall⟩ := h
  refine ⟨middle.filter p, hperm.filter p, ?_⟩
  clear hperm
  induction hall with
  | nil => exact .nil
  | @cons a b _ _ hab _ ih =>
      rw [List.filter_cons, List.filter_cons, hp a b hab]
      split
      · exact .cons hab ih
      · exact ih

theorem length_eq (h : Rearranged R l l') : l.length = l'.length := by
  obtain ⟨middle, hperm, hall⟩ := h
  rw [hperm.length_eq, hall.length_eq]

/-- A condition on pairs that does not look at their order. -/
theorem pairwise {S : α → α → Prop} (hsymm : ∀ a b, S a b → S b a)
    (hkept : ∀ a a' b b', R a a' → R b b' → S a b → S a' b') (h : Rearranged R l l')
    (hl : l.Pairwise S) : l'.Pairwise S := by
  obtain ⟨middle, hperm, hall⟩ := h
  have hmiddle : middle.Pairwise S := hl.perm hperm (fun {a b} => hsymm a b)
  clear hperm hl
  induction hall with
  | nil => exact .nil
  | @cons a a' rest rest' hab hrest ih =>
      rw [List.pairwise_cons] at hmiddle ⊢
      refine ⟨?_, ih hmiddle.2⟩
      intro b' hb'
      obtain ⟨b, hb, hbb'⟩ := mem_right ⟨rest, List.Perm.refl _, hrest⟩ hb'
      exact hkept a a' b b' hab hbb' (hmiddle.1 b hb)

/-- Without changes, rearranging is permuting. -/
theorem perm (h : Rearranged Eq l l') : l.Perm l' := by
  obtain ⟨middle, hperm, hall⟩ := h
  rw [List.forall₂_eq_eq_eq] at hall
  exact hall ▸ hperm

/-- What is returned for one list is returned for the other, up to what a change does to a result. -/
theorem mapM {ε : Type*} {f g : α → Except ε γ} {S : γ → γ → Prop} {results : List γ}
    (h : Rearranged R l l')
    (hchange : ∀ a ∈ l, ∀ b ∈ l', R a b → ∀ r, f a = .ok r → ∃ r', g b = .ok r' ∧ S r r')
    (hresults : l.mapM f = .ok results) :
    ∃ results', l'.mapM g = .ok results' ∧ Rearranged S results results' := by
  obtain ⟨middle, hperm, hall⟩ := h
  obtain ⟨inner, hinner, hmoved⟩ := mapM_perm hperm.symm hresults
  have hchange' : ∀ a ∈ middle, ∀ b ∈ l', R a b → ∀ r, f a = .ok r → ∃ r', g b = .ok r' ∧ S r r' :=
    fun a ha => hchange a (hperm.mem_iff.mpr ha)
  have hread := mapM_ok.mp hinner
  suffices hsuffices : ∃ results', List.Forall₂ (fun b r => g b = .ok r) l' results' ∧
      List.Forall₂ S inner results' by
    obtain ⟨results', hread', hrelated⟩ := hsuffices
    exact ⟨results', mapM_ok.mpr hread', inner, hmoved.symm, hrelated⟩
  clear hperm hresults hinner hmoved hchange
  induction hall generalizing inner with
  | nil =>
      cases hread
      exact ⟨[], .nil, .nil⟩
  | @cons a b as bs hab _ ih =>
      cases hread with
      | @cons _ r _ rs hr hrest =>
          obtain ⟨r', hr', hS⟩ := hchange' a (by simp) b (by simp) hab r hr
          obtain ⟨rs', hrs', hSs⟩ := ih rs (fun a ha b hb =>
            hchange' a (List.mem_cons_of_mem _ ha) b (List.mem_cons_of_mem _ hb)) hrest
          exact ⟨r' :: rs', .cons hr' hrs', .cons hS hSs⟩

/-- Elements that a function maps to the same collection. -/
theorem of_map_perm {f : α → β} (h : (l.map f).Perm (l'.map f)) :
    Rearranged (fun a b => f a = f b) l l' := by
  have himage : List.Forall₂ (fun x b => x = f b) (l'.map f) l' := by
    rw [List.forall₂_map_left_iff]
    exact List.forall₂_same.mpr fun _ _ => rfl
  obtain ⟨middle, hmiddle, hperm⟩ := List.perm_comp_forall₂ h himage
  refine symm (fun _ _ => Eq.symm) ⟨middle, hperm.symm, ?_⟩
  exact ((List.forall₂_map_left_iff.mp hmiddle).imp fun _ _ => Eq.symm).flip

end Rearranged

end Evleda
