/-
Disjoint sets, kept as a forest of pointers.

Every element points at one that is not larger, and a root at itself.  Looking an
element up halves the path it walks; joining two elements lets the larger of their
roots point at the smaller.

Both only ever move pointers inside a class or from one root to another, so the
roots are all there is to know.  They are the one function that is constant along
pointers and fixes the roots, which is how each move is shown to do what it should.
-/
import Mathlib.Logic.Relation
import Mathlib.Logic.Function.Basic
import Mathlib.Tactic.Linarith

namespace Evleda

/-- A forest of pointers to elements that are not larger. -/
structure DisjointSet where
  parent : Nat → Nat
  parent_le : ∀ item, parent item ≤ item

namespace DisjointSet

/-- Every element is its own root. -/
def init : DisjointSet := ⟨id, fun item => Nat.le_refl item⟩

/-- The element points somewhere else. -/
def point (ds : DisjointSet) (item target : Nat) (h : target ≤ item) : DisjointSet where
  parent := Function.update ds.parent item target
  parent_le := by
    intro other
    by_cases heq : other = item
    · rw [heq, Function.update_self]
      exact h
    · rw [Function.update_of_ne heq]
      exact ds.parent_le other

theorem point_self (ds : DisjointSet) {item target : Nat} (h : target ≤ item) :
    (ds.point item target h).parent item = target := Function.update_self ..

theorem point_of_ne (ds : DisjointSet) {item target i : Nat} (h : target ≤ item) (hne : i ≠ item) :
    (ds.point item target h).parent i = ds.parent i := Function.update_of_ne hne ..

theorem grandparent_le (ds : DisjointSet) (item : Nat) : ds.parent (ds.parent item) ≤ item :=
  (ds.parent_le _).trans (ds.parent_le item)

/-- Walk to the root, letting every element on the way point at its grandparent.  The elements get
smaller on the way, so as many steps as the first one is large are enough. -/
def walk (ds : DisjointSet) (item : Nat) : Nat → Nat × DisjointSet
  | 0 => (item, ds)
  | steps + 1 =>
      if ds.parent item = item then (item, ds)
      else
        (ds.point item (ds.parent (ds.parent item)) (ds.grandparent_le item)).walk
          (ds.parent (ds.parent item)) steps

def find (ds : DisjointSet) (item : Nat) : Nat × DisjointSet := ds.walk item item

def union (ds : DisjointSet) (first second : Nat) : DisjointSet :=
  let (a, ds) := ds.find first
  let (b, ds) := ds.find second
  if a = b then ds else ds.point (max a b) (min a b) (min_le_max)

/-! ### Roots -/

def root (ds : DisjointSet) (item : Nat) : Nat := (ds.find item).1

variable {ds : DisjointSet} {item a b i j : Nat}

/-- A map that fixes the roots and is constant along pointers is what every walk ends in. -/
theorem walk_fst (f : Nat → Nat) (steps : Nat) (hsteps : item ≤ steps)
    (hroot : ∀ i, ds.parent i = i → f i = i) (hpointer : ∀ i, f (ds.parent i) = f i) :
    (ds.walk item steps).1 = f item := by
  induction steps generalizing ds item with
  | zero =>
      obtain rfl := Nat.le_zero.mp hsteps
      exact (hroot 0 (Nat.le_zero.mp (ds.parent_le 0))).symm
  | succ steps ih =>
      unfold walk
      by_cases hself : ds.parent item = item
      · rw [if_pos hself]
        exact (hroot item hself).symm
      · have hless : ds.parent item < item := lt_of_le_of_ne (ds.parent_le item) hself
        have hgrand : ds.parent (ds.parent item) ≤ ds.parent item := ds.parent_le _
        rw [if_neg hself]
        rw [ih (by omega), hpointer, hpointer]
        · -- the new pointer is to a smaller element, so a root of the new forest was one before
          intro i hi
          by_cases heq : i = item
          · rw [heq] at hi
            rw [point_self] at hi
            omega
          · rw [point_of_ne _ _ heq] at hi
            exact hroot i hi
        · intro i
          by_cases heq : i = item
          · rw [heq, point_self, hpointer, hpointer]
          · rw [point_of_ne _ _ heq, hpointer]

/-- The root of an element, by recursion along the pointers. -/
def top (ds : DisjointSet) (item : Nat) : Nat :=
  if h : ds.parent item = item then item
  else
    have : ds.parent item < item := lt_of_le_of_ne (ds.parent_le item) h
    ds.top (ds.parent item)
termination_by item

theorem top_of_parent (h : ds.parent item = item) : ds.top item = item := by
  rw [top, dif_pos h]

theorem top_parent (ds : DisjointSet) (item : Nat) : ds.top (ds.parent item) = ds.top item := by
  by_cases hself : ds.parent item = item
  · rw [hself]
  · rw [top.eq_1 ds item, dif_neg hself]

theorem root_eq_top (ds : DisjointSet) (item : Nat) : ds.root item = ds.top item :=
  walk_fst ds.top item (Nat.le_refl item) (fun _ => top_of_parent) ds.top_parent

theorem root_of_parent (h : ds.parent item = item) : ds.root item = item := by
  rw [root_eq_top, top_of_parent h]

@[simp] theorem root_parent (ds : DisjointSet) (item : Nat) :
    ds.root (ds.parent item) = ds.root item := by
  rw [root_eq_top, root_eq_top, top_parent]

/-- The roots are the one map that fixes the roots and is constant along pointers. -/
theorem root_unique (f : Nat → Nat) (hroot : ∀ i, ds.parent i = i → f i = i)
    (hpointer : ∀ i, f (ds.parent i) = f i) (item : Nat) : ds.root item = f item :=
  walk_fst f item (Nat.le_refl item) hroot hpointer

theorem parent_root (ds : DisjointSet) (item : Nat) : ds.parent (ds.root item) = ds.root item := by
  induction item using Nat.strongRecOn with
  | ind item ih =>
      by_cases hself : ds.parent item = item
      · rw [root_of_parent hself, hself]
      · have hless : ds.parent item < item := lt_of_le_of_ne (ds.parent_le item) hself
        have hbelow := ih (ds.parent item) hless
        rw [root_parent] at hbelow
        exact hbelow

@[simp] theorem root_root (ds : DisjointSet) (item : Nat) : ds.root (ds.root item) = ds.root item :=
  root_of_parent (ds.parent_root item)

@[simp] theorem init_root (item : Nat) : init.root item = item := root_of_parent rfl

/-- A pointer to a smaller element of its class changes no root. -/
theorem root_shortcut {target : Nat} (h : target ≤ item) (hless : target < item)
    (hsame : ds.root target = ds.root item) (i : Nat) :
    (ds.point item target h).root i = ds.root i := by
  refine root_unique ds.root ?_ ?_ i
  · intro i hi
    by_cases heq : i = item
    · rw [heq, point_self] at hi
      omega
    · rw [point_of_ne _ _ heq] at hi
      exact root_of_parent hi
  · intro i
    by_cases heq : i = item
    · rw [heq, point_self, hsame]
    · rw [point_of_ne _ _ heq, root_parent]

theorem root_link (ha : ds.parent a = a) (hb : ds.parent b = b) (hless : b < a) (i : Nat) :
    (ds.point a b hless.le).root i = if ds.root i = a then b else ds.root i := by
  refine root_unique (fun i => if ds.root i = a then b else ds.root i) ?_ ?_ i
  · intro i hi
    by_cases heq : i = a
    · rw [heq, point_self] at hi
      omega
    · rw [point_of_ne _ _ heq] at hi
      rw [root_of_parent hi, if_neg heq]
  · intro i
    by_cases heq : i = a
    · rw [heq, point_self, root_of_parent ha, root_of_parent hb, if_pos rfl, if_neg (by omega)]
    · rw [point_of_ne _ _ heq, root_parent]

/-! ### Looking up and joining -/

theorem walk_snd (steps : Nat) (i : Nat) : (ds.walk item steps).2.root i = ds.root i := by
  induction steps generalizing ds item with
  | zero => rfl
  | succ steps ih =>
      unfold walk
      by_cases hself : ds.parent item = item
      · rw [if_pos hself]
      · have hless : ds.parent item < item := lt_of_le_of_ne (ds.parent_le item) hself
        have hgrand : ds.parent (ds.parent item) ≤ ds.parent item := ds.parent_le _
        rw [if_neg hself, ih, root_shortcut _ (by omega) (by simp)]

@[simp] theorem find_fst (ds : DisjointSet) (item : Nat) : (ds.find item).1 = ds.root item := rfl

@[simp] theorem find_snd (ds : DisjointSet) (item i : Nat) :
    (ds.find item).2.root i = ds.root i := walk_snd item i

/-- Two elements are joined: their classes become one, and no other does. -/
theorem union_root (ds : DisjointSet) (first second i : Nat) :
    (ds.union first second).root i =
      if ds.root i = max (ds.root first) (ds.root second) then
        min (ds.root first) (ds.root second)
      else ds.root i := by
  have hroots : ∀ i, ((ds.find first).2.find second).2.root i = ds.root i := by
    intro i
    rw [find_snd, find_snd]
  have hfixed : ∀ i, ((ds.find first).2.find second).2.parent (ds.root i) = ds.root i := by
    intro i
    have hparent := ((ds.find first).2.find second).2.parent_root i
    rw [hroots] at hparent
    exact hparent
  unfold union
  dsimp only
  rw [find_fst, find_fst, find_snd]
  by_cases hsame : ds.root first = ds.root second
  · rw [if_pos hsame, hroots, hsame, max_self, min_self]
    by_cases hi : ds.root i = ds.root second
    · rw [if_pos hi, hi]
    · rw [if_neg hi]
  · rw [if_neg hsame]
    have hless : min (ds.root first) (ds.root second) < max (ds.root first) (ds.root second) :=
      min_lt_max.mpr hsame
    have hmax : ((ds.find first).2.find second).2.parent (max (ds.root first) (ds.root second)) =
        max (ds.root first) (ds.root second) := by
      obtain h | h := max_choice (ds.root first) (ds.root second)
      · rw [h, hfixed]
      · rw [h, hfixed]
    have hmin : ((ds.find first).2.find second).2.parent (min (ds.root first) (ds.root second)) =
        min (ds.root first) (ds.root second) := by
      obtain h | h := min_choice (ds.root first) (ds.root second)
      · rw [h, hfixed]
      · rw [h, hfixed]
    rw [root_link hmax hmin hless, hroots]

/-- The classes are those of the equivalence that a relation generates. -/
def Represents (ds : DisjointSet) (r : Nat → Nat → Prop) : Prop :=
  ∀ i j, ds.root i = ds.root j ↔ Relation.EqvGen r i j

theorem represents_init : init.Represents fun _ _ => False := by
  intro i j
  rw [init_root, init_root]
  constructor
  · rintro rfl
    exact .refl i
  · intro h
    induction h with
    | rel _ _ h => exact h.elim
    | refl _ => rfl
    | symm _ _ _ ih => exact ih.symm
    | trans _ _ _ _ _ ih ih' => exact ih.trans ih'

/-- Joining keeps classes together. -/
theorem union_mono {first second : Nat} (h : ds.root i = ds.root j) :
    (ds.union first second).root i = (ds.union first second).root j := by
  rw [union_root, union_root, h]

/-- What is joined is in one class. -/
theorem union_same (ds : DisjointSet) (first second : Nat) :
    (ds.union first second).root first = (ds.union first second).root second := by
  rw [union_root, union_root]
  rcases le_total (ds.root first) (ds.root second) with h | h
  · rw [max_eq_right h, min_eq_left h, if_pos rfl]
    split <;> rfl
  · rw [max_eq_left h, min_eq_right h, if_pos rfl]
    split <;> rfl

theorem Represents.union {r : Nat → Nat → Prop} (h : ds.Represents r) (first second : Nat) :
    (ds.union first second).Represents fun i j => r i j ∨ (i = first ∧ j = second) := by
  have hold : ∀ {i j}, Relation.EqvGen r i j →
      Relation.EqvGen (fun i j => r i j ∨ (i = first ∧ j = second)) i j :=
    fun hij => hij.mono fun _ _ hr => Or.inl hr
  have hpair : Relation.EqvGen (fun i j => r i j ∨ (i = first ∧ j = second)) first second :=
    .rel _ _ (Or.inr ⟨rfl, rfl⟩)
  intro i j
  constructor
  · intro hsame
    rw [union_root, union_root] at hsame
    -- a root that moved is one of the two, and both are where it moved to
    have hmoved : ∀ k, Relation.EqvGen (fun i j => r i j ∨ (i = first ∧ j = second)) k
        (if ds.root k = max (ds.root first) (ds.root second) then
          min (ds.root first) (ds.root second) else ds.root k) := by
      intro k
      have hk := hold ((h k (ds.root k)).mp (ds.root_root k).symm)
      have hfirst := hold ((h first (ds.root first)).mp (ds.root_root first).symm)
      have hsecond := hold ((h second (ds.root second)).mp (ds.root_root second).symm)
      have hboth := (hfirst.symm).trans _ _ _ (hpair.trans _ _ _ hsecond)
      by_cases hmax : ds.root k = max (ds.root first) (ds.root second)
      · rw [if_pos hmax]
        rcases le_total (ds.root first) (ds.root second) with hle | hle
        · rw [max_eq_right hle] at hmax
          rw [min_eq_left hle]
          rw [hmax] at hk
          exact hk.trans _ _ _ hboth.symm
        · rw [max_eq_left hle] at hmax
          rw [min_eq_right hle]
          rw [hmax] at hk
          exact hk.trans _ _ _ hboth
      · rw [if_neg hmax]
        exact hk
    have hi := hmoved i
    rw [hsame] at hi
    exact hi.trans _ _ _ (hmoved j).symm
  · intro hij
    induction hij with
    | rel i j hr =>
        obtain hr | ⟨rfl, rfl⟩ := hr
        · rw [union_root, union_root, (h i j).mpr (.rel _ _ hr)]
        · exact ds.union_same i j
    | refl _ => rfl
    | symm _ _ _ ih => exact ih.symm
    | trans _ _ _ _ _ ih ih' => exact ih.trans ih'

/-- The classes after joining pair after pair. -/
theorem Represents.foldl {α : Type*} (first second : α → Nat) {r : Nat → Nat → Prop}
    (items : List α) (h : ds.Represents r) :
    (items.foldl (fun ds item => ds.union (first item) (second item)) ds).Represents fun i j =>
      r i j ∨ ∃ item ∈ items, i = first item ∧ j = second item := by
  induction items generalizing ds r with
  | nil => simpa using h
  | cons item items ih =>
      have hrest := ih (h.union (first item) (second item))
      intro i j
      rw [List.foldl_cons]
      refine (hrest i j).trans (iff_of_eq (congrArg (fun r => Relation.EqvGen r i j) ?_))
      funext i j
      simp only [List.mem_cons, exists_eq_or_imp, or_assoc]

end DisjointSet

end Evleda
