/-
What is connected in a drawing.

Some things touch places, and some carry names.  Two that touch one place are
joined, and so are two that carry one name; connected is what follows from that.

A computation of what is connected sorts the places into classes.  It is right if
the things never straddle two classes, and if every class was put together from
places that are connected.  Both directions are shown here once, for any way of
numbering the places that tells them apart.
-/
import Mathlib.Logic.Relation

namespace Evleda

/-- Things that touch places, some of which carry names. -/
structure Wiring (ι π ν : Type*) where
  Touches : ι → π → Prop
  Named : ι → ν → Prop
  placed : ∀ x n, Named x n → ∃ p, Touches x p

namespace Wiring

variable {ι π ν κ : Type*} (w : Wiring ι π ν)

/-- Two things touch one place, or carry one name. -/
inductive Joined : ι → ι → Prop
  | place {x y : ι} (p : π) (hx : w.Touches x p) (hy : w.Touches y p) : Joined x y
  | name {x y : ι} (n : ν) (hx : w.Named x n) (hy : w.Named y n) : Joined x y

/-- What follows from being joined. -/
def Connected : ι → ι → Prop := Relation.EqvGen w.Joined

variable {w} {x y z : ι} {p q : π}

theorem Connected.refl (x : ι) : w.Connected x x := Relation.EqvGen.refl x

theorem Connected.symm (h : w.Connected x y) : w.Connected y x := Relation.EqvGen.symm _ _ h

theorem Connected.trans (h : w.Connected x y) (h' : w.Connected y z) : w.Connected x z :=
  Relation.EqvGen.trans _ _ _ h h'

theorem connected_of_place (hx : w.Touches x p) (hy : w.Touches y p) : w.Connected x y :=
  .rel _ _ (.place p hx hy)

theorem connected_of_name {n : ν} (hx : w.Named x n) (hy : w.Named y n) : w.Connected x y :=
  .rel _ _ (.name n hx hy)

theorem Joined.placed (h : w.Joined x y) : (∃ p, w.Touches x p) ∧ ∃ p, w.Touches y p := by
  cases h with
  | place p hx hy => exact ⟨⟨p, hx⟩, ⟨p, hy⟩⟩
  | name n hx hy => exact ⟨w.placed x n hx, w.placed y n hy⟩

/-- Connected things are in one class, if none straddles two and those of one name do not either. -/
theorem Connected.class_eq (cls : π → κ)
    (hthing : ∀ x p q, w.Touches x p → w.Touches x q → cls p = cls q)
    (hname : ∀ x y n p q, w.Named x n → w.Named y n → w.Touches x p → w.Touches y q →
      cls p = cls q)
    (h : w.Connected x y) (hx : w.Touches x p) (hy : w.Touches y q) : cls p = cls q := by
  have hall : x = y ∨ ((∃ p, w.Touches x p) ∧ (∃ q, w.Touches y q) ∧
      ∀ p q, w.Touches x p → w.Touches y q → cls p = cls q) := by
    clear hx hy
    induction h with
    | rel x y hjoined =>
        obtain ⟨hleft, hright⟩ := hjoined.placed
        refine Or.inr ⟨hleft, hright, ?_⟩
        intro p q hp hq
        cases hjoined with
        | place r hx hy => exact (hthing x p r hp hx).trans (hthing y r q hy hq)
        | name n hx hy => exact hname x y n p q hx hy hp hq
    | refl x => exact Or.inl rfl
    | symm x y _ ih =>
        obtain rfl | ⟨hleft, hright, hsame⟩ := ih
        · exact Or.inl rfl
        · exact Or.inr ⟨hright, hleft, fun p q hp hq => (hsame q p hq hp).symm⟩
    | trans x y z _ _ ih ih' =>
        obtain rfl | ⟨hleft, ⟨m, hm⟩, hsame⟩ := ih
        · exact ih'
        · obtain rfl | ⟨-, hright, hsame'⟩ := ih'
          · exact Or.inr ⟨hleft, ⟨m, hm⟩, hsame⟩
          · exact Or.inr ⟨hleft, hright, fun p q hp hq => (hsame p m hp hm).trans (hsame' m q hm hq)⟩
  obtain rfl | ⟨-, -, hsame⟩ := hall
  · exact hthing x p q hx hy
  · exact hsame p q hx hy

theorem connected_of_class (number : π → κ) {r : κ → κ → Prop}
    (hnumber : ∀ x y p q, w.Touches x p → w.Touches y q → number p = number q → p = q)
    (hr : ∀ i j, r i j → ∃ x y p q, w.Touches x p ∧ w.Touches y q ∧ number p = i ∧ number q = j ∧
      w.Connected x y)
    (h : Relation.EqvGen r (number p) (number q)) (hx : w.Touches x p) (hy : w.Touches y q) :
    w.Connected x y := by
  have hall : ∀ i j, Relation.EqvGen r i j → i = j ∨ ∃ x y p q, w.Touches x p ∧ w.Touches y q ∧
      number p = i ∧ number q = j ∧ w.Connected x y := by
    intro i j hij
    induction hij with
    | rel i j hrel => exact Or.inr (hr i j hrel)
    | refl i => exact Or.inl rfl
    | symm i j _ ih =>
        obtain rfl | ⟨x, y, p, q, hp, hq, hi, hj, hxy⟩ := ih
        · exact Or.inl rfl
        · exact Or.inr ⟨y, x, q, p, hq, hp, hj, hi, hxy.symm⟩
    | trans i j k _ _ ih ih' =>
        obtain rfl | ⟨x, y, p, q, hp, hq, hi, hj, hxy⟩ := ih
        · exact ih'
        · obtain rfl | ⟨x', y', p', q', hp', hq', hj', hk, hxy'⟩ := ih'
          · exact Or.inr ⟨x, y, p, q, hp, hq, hi, hj, hxy⟩
          · have hmiddle : q = p' := hnumber y x' q p' hq hp' (hj.trans hj'.symm)
            rw [← hmiddle] at hp'
            exact Or.inr ⟨x, y', p, q', hp, hq', hi, hk,
              (hxy.trans (connected_of_place hq hp')).trans hxy'⟩
  obtain hsame | ⟨x', y', p', q', hp', hq', hi, hj, hxy⟩ := hall _ _ h
  · have hplace : p = q := hnumber x y p q hx hy hsame
    rw [← hplace] at hy
    exact connected_of_place hx hy
  · have hleft : p' = p := hnumber x' x p' p hp' hx hi
    have hright : q' = q := hnumber y' y q' q hq' hy hj
    rw [hleft] at hp'
    rw [hright] at hq'
    exact ((connected_of_place hx hp').trans hxy).trans (connected_of_place hq' hy)

end Wiring

end Evleda
