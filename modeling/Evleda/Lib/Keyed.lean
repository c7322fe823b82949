/-
Records under keys, replaced one at a time.

A dictionary whose keys are read off its records is a list of records without
repeated keys; assigning under a key replaces the record that has it and leaves
the others, and the order, alone.  What is proved of all records after an
assignment is proved of the new record and of the old ones with other keys, and
a sum over the records changes by what one record contributes.
-/
import Evleda.Lib.Collections
import Evleda.Lib.Outcome
import Mathlib.Algebra.BigOperators.Group.List.Basic
import Mathlib.Algebra.Order.Group.Int
import Mathlib.Tactic.Abel

namespace Evleda.Keyed

variable {α κ : Type*} [DecidableEq κ] {key : α → κ} {items : List α} {a b : α}

/-- `items[key(a)] = a`, where the key is there already. -/
def put (key : α → κ) (items : List α) (a : α) : List α :=
  items.map (fun other => if key other = key a then a else other)

theorem mem_put : b ∈ put key items a ↔
    (b ∈ items ∧ key b ≠ key a) ∨ (b = a ∧ ∃ c ∈ items, key c = key a) := by
  unfold put
  rw [List.mem_map]
  constructor
  · rintro ⟨c, hc, hb⟩
    by_cases hkey : key c = key a
    · rw [if_pos hkey] at hb
      exact Or.inr ⟨hb.symm, c, hc, hkey⟩
    · rw [if_neg hkey] at hb
      subst hb
      exact Or.inl ⟨hc, hkey⟩
  · rintro (⟨hb, hkey⟩ | ⟨rfl, c, hc, hkey⟩)
    · exact ⟨b, hb, if_neg hkey⟩
    · exact ⟨c, hc, if_pos hkey⟩

theorem mem_put_self (hb : b ∈ items) (hkey : key a = key b) : a ∈ put key items a :=
  mem_put.mpr (Or.inr ⟨rfl, b, hb, hkey.symm⟩)

theorem mem_put_of_ne (hb : b ∈ items) (hkey : key b ≠ key a) : b ∈ put key items a :=
  mem_put.mpr (Or.inl ⟨hb, hkey⟩)

@[simp] theorem map_key_put : (put key items a).map key = items.map key := by
  unfold put
  rw [List.map_map]
  refine List.map_congr_left ?_
  intro other _
  show key (if key other = key a then a else other) = key other
  by_cases hkey : key other = key a
  · rw [if_pos hkey, hkey]
  · rw [if_neg hkey]

/-- Assigning under a key that is not there changes nothing. -/
theorem put_of_not_mem (h : ∀ b ∈ items, key b ≠ key a) : put key items a = items := by
  unfold put
  calc items.map (fun other => if key other = key a then a else other)
      = items.map id := List.map_congr_left fun b hb => if_neg (h b hb)
    _ = items := List.map_id _

/-- A sum over the records after one of them, `b`, has been replaced. -/
theorem sum_put {M : Type*} [AddCommGroup M] (f : α → M) (hnodup : (items.map key).Nodup)
    (hb : b ∈ items) (hkey : key a = key b) :
    ((put key items a).map f).sum = (items.map f).sum - f b + f a := by
  induction items with
  | nil => cases hb
  | cons first rest ih =>
      rw [List.map_cons, List.nodup_cons] at hnodup
      have hcons : put key (first :: rest) a =
          (if key first = key a then a else first) :: put key rest a := rfl
      rw [hcons, List.map_cons, List.sum_cons, List.map_cons, List.sum_cons]
      rcases List.mem_cons.mp hb with rfl | hin
      · have hrest : ∀ c ∈ rest, key c ≠ key a := by
          intro c hc heq
          refine hnodup.1 ?_
          rw [← hkey, ← heq]
          exact List.mem_map_of_mem hc
        rw [if_pos hkey.symm, put_of_not_mem hrest]
        abel
      · have hne : key first ≠ key a := by
          intro heq
          refine hnodup.1 ?_
          rw [heq, hkey]
          exact List.mem_map_of_mem hin
        rw [if_neg hne, ih hnodup.2 hin]
        abel

/-! ### Assigning under any key -/

/-- `items[key(a)] = a` -/
def assign (key : α → κ) (items : List α) (a : α) : List α :=
  if ∃ b ∈ items, key b = key a then put key items a else items ++ [a]

theorem mem_assign : b ∈ assign key items a ↔ (b ∈ items ∧ key b ≠ key a) ∨ b = a := by
  unfold assign
  split
  · rename_i hthere
    rw [mem_put, and_iff_left hthere]
  · rename_i hnew
    have hne : ∀ c ∈ items, key c ≠ key a := fun c hc hkey => hnew ⟨c, hc, hkey⟩
    rw [List.mem_append, List.mem_singleton, and_iff_left_of_imp (hne b)]

theorem nodup_assign (hnodup : (items.map key).Nodup) : ((assign key items a).map key).Nodup := by
  unfold assign
  split
  · rw [map_key_put]
    exact hnodup
  · rename_i hnew
    exact nodup_map_snoc hnodup fun c hc hkey => hnew ⟨c, hc, hkey⟩

/-! ### Loops over a snapshot -/

omit [DecidableEq κ] in
/-- A loop over a snapshot of records with different keys, each round of which keeps `I` and leaves
what `Fits` says of the records with other keys. -/
theorem foldlM_invariant {ε σ : Type*} {step : σ → α → Except ε σ} (I : σ → Prop)
    (Fits : σ → α → Prop)
    (hstep : ∀ s a s', I s → Fits s a → step s a = .ok s' →
      I s' ∧ ∀ b, key b ≠ key a → Fits s b → Fits s' b)
    {s s' : σ} (hnodup : (items.map key).Nodup) (hI : I s) (hfits : ∀ a ∈ items, Fits s a)
    (h : items.foldlM step s = .ok s') : I s' := by
  induction items generalizing s with
  | nil =>
      rw [List.foldlM_nil, Outcome.pure_ok] at h
      exact h ▸ hI
  | cons first rest ih =>
      rw [List.map_cons, List.nodup_cons] at hnodup
      obtain ⟨middle, hfirst, hrest⟩ := Outcome.foldlM_cons_ok.mp h
      obtain ⟨hmiddle, hothers⟩ := hstep s first middle hI (hfits first List.mem_cons_self) hfirst
      refine ih hnodup.2 hmiddle ?_ hrest
      intro a ha
      refine hothers a ?_ (hfits a (List.mem_cons_of_mem _ ha))
      intro hkey
      exact hnodup.1 (hkey ▸ List.mem_map_of_mem ha)

end Evleda.Keyed
