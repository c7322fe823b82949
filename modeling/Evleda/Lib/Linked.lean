/-
Chains of entries, each of which names the one before it.

An entry has a digest and names the digest of its predecessor; the first names a
digest that stands for no entry at all.  What the head can have been so far, from
the empty chain on, is a list that is one longer than the chain: a digest at place
`k` of it is the head after `k` entries.  A pair of a place and a digest in that
list names an exact prefix of the chain, and still does when the chain has grown.

When no digest occurs in the list twice, a predecessor is named by one entry only.
-/
import Mathlib.Data.List.Nodup
import Mathlib.Data.List.Infix

namespace Evleda

variable {α δ : Type} (previous digest : α → δ) (zero : δ)

/-- What the head has been: the digest that stands for no entry, and then that of every entry. -/
def heads (entries : List α) : List δ := zero :: entries.map digest

/-- The digest of the last entry, if there is one. -/
def headOf (entries : List α) : δ := (entries.map digest).getLastD zero

/-- Every entry names what was the head before it. -/
def Linked (entries : List α) : Prop :=
  entries.map previous = (heads digest zero entries).dropLast

namespace Linked

variable {previous digest zero} {entries later : List α} {entry a b : α} {d : δ} {k : Nat}

@[simp] theorem length_heads : (heads digest zero entries).length = entries.length + 1 := by
  simp [heads]

theorem heads_snoc :
    heads digest zero (entries ++ [entry]) = heads digest zero entries ++ [digest entry] := by
  simp [heads]

theorem headOf_cons :
    headOf digest zero (entry :: entries) = headOf digest (digest entry) entries := by
  unfold headOf
  rw [List.map_cons, List.getLastD_cons]

@[simp] theorem headOf_snoc : headOf digest zero (entries ++ [entry]) = digest entry := by
  unfold headOf
  rw [List.map_append, List.map_singleton, List.getLastD_concat]

theorem headOf_at :
    (heads digest zero entries)[entries.length]? = some (headOf digest zero entries) := by
  induction entries generalizing zero with
  | nil => rfl
  | cons entry entries ih =>
      rw [headOf_cons, List.length_cons, heads, List.getElem?_cons_succ]
      exact ih

theorem heads_eq :
    heads digest zero entries =
      (heads digest zero entries).dropLast ++ [headOf digest zero entries] := by
  induction entries generalizing zero with
  | nil => rfl
  | cons entry entries ih =>
      have hrest := @ih (digest entry)
      rw [headOf_cons]
      exact congrArg (List.cons zero) hrest

theorem nil : Linked previous digest zero [] := rfl

theorem snoc (h : Linked previous digest zero entries)
    (hentry : previous entry = headOf digest zero entries) :
    Linked previous digest zero (entries ++ [entry]) := by
  unfold Linked at h ⊢
  rw [heads_snoc, List.dropLast_concat, List.map_append, h, List.map_singleton, hentry]
  exact heads_eq.symm

/-- Read from its start, a chain is an entry that names the start and the chain from there. -/
theorem cons_iff : Linked previous digest zero (entry :: entries) ↔
    previous entry = zero ∧ Linked previous digest (digest entry) entries := by
  unfold Linked heads
  rw [List.map_cons, List.map_cons, List.dropLast_cons_cons, List.cons.injEq]

/-- What the head has been does not change when the chain grows. -/
theorem heads_mono (h : entries <+: later) :
    heads digest zero entries <+: heads digest zero later :=
  (List.prefix_cons_inj zero).mpr (h.map digest)

theorem named_mono (h : entries <+: later) (hnamed : (heads digest zero entries)[k]? = some d) :
    (heads digest zero later)[k]? = some d := by
  obtain ⟨hk, hvalue⟩ := List.getElem?_eq_some_iff.mp hnamed
  rw [List.prefix_iff_getElem?.mp (heads_mono h) k hk, hvalue]

theorem named_le (hnamed : (heads digest zero entries)[k]? = some d) : k ≤ entries.length := by
  obtain ⟨hk, -⟩ := List.getElem?_eq_some_iff.mp hnamed
  rw [length_heads] at hk
  omega

theorem named_head (hnamed : (heads digest zero entries)[entries.length]? = some d) :
    d = headOf digest zero entries := by
  rw [headOf_at, Option.some.injEq] at hnamed
  exact hnamed.symm

/-- Without the last head, what is left of a list without repetitions has none. -/
theorem previous_nodup (h : Linked previous digest zero entries)
    (hdistinct : (heads digest zero entries).Nodup) : (entries.map previous).Nodup := by
  rw [h]
  exact hdistinct.sublist (List.dropLast_sublist _)

end Linked

end Evleda
