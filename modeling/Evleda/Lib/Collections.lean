/-
Sorting by a key, and dictionaries.

`sorted(items, key=...)` is insertion sort, which is stable.  Two facts about it
carry everything that is proved about normal forms: what is sorted already is
left alone, and a collection without repeated keys has only one sorted order.

A dictionary is a partial function; the program never depends on the order of
the dictionaries modelled so.
-/
import Mathlib.Data.List.Sort
import Mathlib.Data.List.Induction
import Mathlib.Data.List.Perm.Lattice
import Mathlib.Logic.Function.Basic

namespace Evleda

variable {α β κ : Type*}

/-- One more element, under a new key, repeats none. -/
theorem nodup_map_snoc {key : α → κ} {items : List α} {a : α} (hnodup : (items.map key).Nodup)
    (h : ∀ b ∈ items, key b ≠ key a) : ((items ++ [a]).map key).Nodup := by
  rw [List.map_append, List.map_singleton, List.nodup_append]
  refine ⟨hnodup, List.nodup_singleton _, ?_⟩
  intro k hk k' hk' heq
  obtain ⟨b, hb, rfl⟩ := List.mem_map.mp hk
  rw [List.mem_singleton] at hk'
  exact h b hb (heq.trans hk')

/-! ### Sorting by a key -/

section Sorting

variable [LinearOrder κ] (key : α → κ)

/-- `sorted(items, key=key)` -/
def sortBy (items : List α) : List α := items.insertionSort (fun a b => key a ≤ key b)

/-- In the order of the keys. -/
def SortedBy (items : List α) : Prop := items.Pairwise (fun a b => key a ≤ key b)

variable {key}

theorem sortBy_perm (items : List α) : (sortBy key items).Perm items :=
  List.perm_insertionSort _ items

theorem mem_sortBy {items : List α} {a : α} : a ∈ sortBy key items ↔ a ∈ items :=
  (sortBy_perm items).mem_iff

@[simp] theorem length_sortBy (items : List α) : (sortBy key items).length = items.length :=
  (sortBy_perm items).length_eq

theorem sortBy_ne_nil {items : List α} (h : items ≠ []) : sortBy key items ≠ [] := by
  rw [← List.length_pos_iff, length_sortBy, List.length_pos_iff]
  exact h

theorem sortBy_sorted (items : List α) : SortedBy key (sortBy key items) := by
  have : IsTrans α (fun a b => key a ≤ key b) := ⟨fun _ _ _ => le_trans⟩
  have : Std.Total (fun a b => key a ≤ key b) := ⟨fun a b => le_total (key a) (key b)⟩
  exact List.pairwise_insertionSort _ items

theorem sortBy_eq_self {items : List α} (h : SortedBy key items) : sortBy key items = items :=
  List.Pairwise.insertionSort_eq h

theorem sortBy_idem (items : List α) : sortBy key (sortBy key items) = sortBy key items :=
  sortBy_eq_self (sortBy_sorted items)

/-- Two sorted arrangements of one collection without repeated keys are the same. -/
theorem SortedBy.eq_of_perm {items items' : List α} (h : SortedBy key items)
    (h' : SortedBy key items') (hnodup : (items.map key).Nodup) (hperm : items.Perm items') :
    items = items' := by
  have hstrict : ∀ l : List α, SortedBy key l → (l.map key).Nodup →
      l.Pairwise (fun a b => key a < key b) := by
    intro l hl hd
    rw [List.nodup_iff_pairwise_ne, List.pairwise_map] at hd
    exact (hl.and hd).imp fun hab => lt_of_le_of_ne hab.1 hab.2
  have : Std.Antisymm (fun a b : α => key a < key b) :=
    ⟨fun a b hab hba => absurd hba (not_lt_of_gt hab)⟩
  exact List.Perm.eq_of_pairwise' (hstrict items h hnodup)
    (hstrict items' h' ((hperm.map key).nodup_iff.mp hnodup)) hperm

/-- Sorting does not see the order in which distinct keys were given. -/
theorem sortBy_eq_of_perm {items items' : List α} (hnodup : (items.map key).Nodup)
    (hperm : items.Perm items') : sortBy key items = sortBy key items' := by
  refine SortedBy.eq_of_perm (sortBy_sorted items) (sortBy_sorted items') ?_ ?_
  · exact ((sortBy_perm items).map key).nodup_iff.mpr hnodup
  · exact (sortBy_perm items).trans (hperm.trans (sortBy_perm items').symm)

/-- Nor does it see the order of anything that its key tells apart. -/
theorem sortBy_eq_of_injective {items items' : List α} (hkey : Function.Injective key)
    (hperm : items.Perm items') : sortBy key items = sortBy key items' := by
  have : Std.Antisymm (fun a b : α => key a ≤ key b) :=
    ⟨fun a b hab hba => hkey (le_antisymm hab hba)⟩
  exact List.Perm.eq_of_pairwise' (sortBy_sorted items) (sortBy_sorted items')
    ((sortBy_perm items).trans (hperm.trans (sortBy_perm items').symm))

/-- The keys in order are the same, however the items were given. -/
theorem map_sortBy_of_perm {items items' : List α} (hperm : items.Perm items') :
    (sortBy key items).map key = (sortBy key items').map key := by
  have hsorted : ∀ items : List α, ((sortBy key items).map key).Pairwise (· ≤ ·) :=
    fun items => List.pairwise_map.mpr (sortBy_sorted items)
  exact List.Perm.eq_of_pairwise' (hsorted items) (hsorted items')
    (((sortBy_perm items).trans (hperm.trans (sortBy_perm items').symm)).map key)

/-- What has the greatest key comes last. -/
theorem sortBy_snoc {items : List α} {a : α} (hnodup : (items.map key).Nodup)
    (h : ∀ b ∈ items, key b < key a) : sortBy key (items ++ [a]) = sortBy key items ++ [a] := by
  have hsorted : SortedBy key (sortBy key items ++ [a]) := by
    refine List.pairwise_append.mpr ⟨sortBy_sorted items, List.pairwise_singleton _ _, ?_⟩
    intro b hb a' ha'
    rw [List.mem_singleton] at ha'
    subst ha'
    exact (h b (mem_sortBy.mp hb)).le
  have hkeys : ((items ++ [a]).map key).Nodup := nodup_map_snoc hnodup fun b hb => (h b hb).ne
  refine SortedBy.eq_of_perm (sortBy_sorted _) hsorted ?_ ?_
  · exact ((sortBy_perm _).map key).nodup_iff.mpr hkeys
  · exact (sortBy_perm _).trans ((sortBy_perm items).symm.append_right [a])

end Sorting

/-! ### Looking up by a key -/

/-- Without repeated keys, the first element under a key is the only one. -/
theorem find?_of_nodup [DecidableEq κ] {key : α → κ} {items : List α} {a : α} {k : κ}
    (hnodup : (items.map key).Nodup) (ha : a ∈ items) (hk : key a = k) :
    items.find? (fun item => key item == k) = some a := by
  induction items with
  | nil => simp at ha
  | cons first rest ih =>
      rw [List.map_cons, List.nodup_cons] at hnodup
      rcases List.mem_cons.mp ha with rfl | ha
      · simp [hk]
      · have hne : key first ≠ k := by
          intro hfirst
          refine hnodup.1 ?_
          rw [hfirst, ← hk]
          exact List.mem_map_of_mem ha
        rw [List.find?_cons_of_neg (by simpa using hne)]
        exact ih hnodup.2 ha

/-- Without repeated keys, what is looked up is what is there. -/
theorem lookup_eq_some_iff_mem [DecidableEq κ] {pairs : List (κ × β)} {k : κ} {b : β}
    (hnodup : (pairs.map Prod.fst).Nodup) : pairs.lookup k = some b ↔ (k, b) ∈ pairs := by
  induction pairs with
  | nil => simp
  | cons pair rest ih =>
      rw [List.map_cons, List.nodup_cons] at hnodup
      rw [List.lookup_cons, List.mem_cons]
      by_cases hk : k = pair.1
      · subst hk
        have hrest : (pair.1, b) ∉ rest :=
          fun hmem => hnodup.1 (List.mem_map.mpr ⟨(pair.1, b), hmem, rfl⟩)
        simp only [BEq.rfl, Option.some.injEq, hrest, or_false, Prod.ext_iff, true_and]
        exact eq_comm
      · have hne : (k == pair.1) = false := by simpa using hk
        rw [hne, ih hnodup.2]
        simp only [Prod.ext_iff, hk, false_and, false_or]

/-- Values that increase from one element of a key to the next increase along those of one key. -/
theorem increasing_of_key [DecidableEq κ] {key : β → κ} {value : β → Nat} {items : List β}
    (h : items.Pairwise fun a b => key a = key b → value a < value b) (k : κ) :
    ((items.filter (key · = k)).map value).Pairwise (· < ·) := by
  rw [List.pairwise_map]
  refine (h.filter _).imp_of_mem ?_
  intro a b ha hb hlt
  have hka : key a = k := of_decide_eq_true (List.mem_filter.mp ha).2
  have hkb : key b = k := of_decide_eq_true (List.mem_filter.mp hb).2
  exact hlt (hka.trans hkb.symm)

/-! ### Parts around a separator -/

/-- What comes before the first separator, and after it, is determined. -/
theorem append_cons_inj {c : α} {xs ys s t : List α} (hxs : c ∉ xs) (hys : c ∉ ys)
    (h : xs ++ c :: s = ys ++ c :: t) : xs = ys ∧ s = t := by
  induction xs generalizing ys with
  | nil =>
      cases ys with
      | nil => exact ⟨rfl, (List.cons.inj h).2⟩
      | cons b ys => exact absurd (List.mem_cons.mpr (Or.inl (List.cons.inj h).1)) hys
  | cons a xs ih =>
      cases ys with
      | nil => exact absurd (List.mem_cons.mpr (Or.inl (List.cons.inj h).1.symm)) hxs
      | cons b ys =>
          obtain ⟨hab, hrest⟩ := List.cons.inj h
          obtain ⟨hxy, hst⟩ := ih (fun hc => hxs (List.mem_cons_of_mem _ hc))
            (fun hc => hys (List.mem_cons_of_mem _ hc)) hrest
          exact ⟨by rw [hab, hxy], hst⟩

theorem append_cons_inj_last {c : α} {xs ys s t : List α} (hs : c ∉ s) (ht : c ∉ t)
    (h : xs ++ c :: s = ys ++ c :: t) : xs = ys ∧ s = t := by
  have hback := congrArg List.reverse h
  rw [List.reverse_append, List.reverse_append, List.reverse_cons, List.reverse_cons,
    List.append_assoc, List.append_assoc] at hback
  obtain ⟨hst, hxy⟩ := append_cons_inj (by rwa [List.mem_reverse]) (by rwa [List.mem_reverse]) hback
  exact ⟨List.reverse_injective hxy, List.reverse_injective hst⟩

/-! ### Dictionaries -/

/-- A dictionary, read with `get`. -/
abbrev Dict (κ β : Type*) := κ → Option β

namespace Dict

variable [DecidableEq κ]

def empty : Dict κ β := fun _ => none

/-- `d[key] = value` -/
def set (d : Dict κ β) (key : κ) (value : β) : Dict κ β := Function.update d key (some value)

/-- `d.update(pairs)` -/
def update (d : Dict κ β) (pairs : List (κ × β)) : Dict κ β :=
  pairs.foldl (fun d pair => d.set pair.1 pair.2) d

/-- `d.pop(key, None)` -/
def erase (d : Dict κ β) (key : κ) : Dict κ β := Function.update d key none

@[simp] theorem set_self (d : Dict κ β) (key : κ) (value : β) : d.set key value key = some value :=
  Function.update_self ..

theorem set_of_ne (d : Dict κ β) {key key' : κ} (value : β) (h : key' ≠ key) :
    d.set key value key' = d key' :=
  Function.update_of_ne h ..

theorem set_set (d : Dict κ β) (key : κ) (value value' : β) :
    (d.set key value).set key value' = d.set key value' :=
  Function.update_idem ..

/-- Assigning what is there already changes nothing. -/
theorem set_eq_self {d : Dict κ β} {key : κ} {value : β} (h : d key = some value) :
    d.set key value = d := by
  unfold set
  rw [← h, Function.update_eq_self]

theorem update_snoc (d : Dict κ β) (pairs : List (κ × β)) (key : κ) (value : β) :
    d.update (pairs ++ [(key, value)]) = (d.update pairs).set key value := by
  unfold update
  rw [List.foldl_append]
  rfl

/-- A key that is not assigned keeps its value. -/
theorem update_of_not_mem (d : Dict κ β) {pairs : List (κ × β)} {key : κ}
    (h : key ∉ pairs.map Prod.fst) : d.update pairs key = d key := by
  induction pairs generalizing d with
  | nil => rfl
  | cons pair rest ih =>
      rw [List.map_cons, List.mem_cons, not_or] at h
      have hstep : d.update (pair :: rest) = (d.set pair.1 pair.2).update rest := rfl
      rw [hstep, ih _ h.2, set_of_ne _ _ h.1]

/-- What a dictionary holds after one assignment. -/
theorem set_eq_some {d : Dict κ β} {key key' : κ} {value value' : β}
    (h : d.set key value key' = some value') :
    (key' = key ∧ value' = value) ∨ (key' ≠ key ∧ d key' = some value') := by
  by_cases hkey : key' = key
  · subst hkey
    rw [set_self] at h
    cases h
    exact Or.inl ⟨rfl, rfl⟩
  · rw [set_of_ne d value hkey] at h
    exact Or.inr ⟨hkey, h⟩

/-- A key that is assigned has one of the values given for it. -/
theorem update_of_mem (d : Dict κ β) {pairs : List (κ × β)} {key : κ}
    (h : key ∈ pairs.map Prod.fst) : ∃ value, (key, value) ∈ pairs ∧
      d.update pairs key = some value := by
  induction pairs generalizing d with
  | nil => simp at h
  | cons pair rest ih =>
      have hstep : d.update (pair :: rest) = (d.set pair.1 pair.2).update rest := rfl
      by_cases hrest : key ∈ rest.map Prod.fst
      · obtain ⟨value, hmem, hvalue⟩ := ih (d.set pair.1 pair.2) hrest
        exact ⟨value, List.mem_cons_of_mem _ hmem, hvalue⟩
      · rw [List.map_cons, List.mem_cons] at h
        obtain rfl := h.resolve_right hrest
        refine ⟨pair.2, List.mem_cons_self .., ?_⟩
        rw [hstep, update_of_not_mem _ hrest, set_self]

theorem update_eq_of_mem (d : Dict κ β) {pairs : List (κ × β)} {key : κ} {value : β}
    (hmem : (key, value) ∈ pairs) (hall : ∀ value', (key, value') ∈ pairs → value' = value) :
    d.update pairs key = some value := by
  obtain ⟨value', hmem', hvalue⟩ := d.update_of_mem (List.mem_map_of_mem (f := Prod.fst) hmem)
  rw [hvalue, hall value' hmem']

theorem update_rank {ρ : Type*} [Preorder ρ] {key : β → κ} {rank : β → ρ} {items : List β}
    (hsorted : items.Pairwise (fun a b => rank a ≤ rank b)) {k : κ} {a : β}
    (h : (empty : Dict κ β).update (items.map fun b => (key b, b)) k = some a) :
    ∀ b ∈ items, key b = k → rank b ≤ rank a := by
  induction items using List.reverseRecOn with
  | nil => exact fun b hb => absurd hb List.not_mem_nil
  | append_singleton items last ih =>
      obtain ⟨hitems, -, hlast⟩ := List.pairwise_append.mp hsorted
      rw [List.map_append, List.map_singleton, update_snoc] at h
      intro b hb hkey
      rcases set_eq_some h with ⟨-, rfl⟩ | ⟨hne, hold⟩
      · rcases List.mem_append.mp hb with hb | hb
        · exact hlast b hb _ (List.mem_singleton_self _)
        · rw [List.mem_singleton.mp hb]
      · rcases List.mem_append.mp hb with hb | hb
        · exact ih hitems hold b hb hkey
        · exact absurd (List.mem_singleton.mp hb ▸ hkey.symm) hne

/-- What the empty dictionary holds after assignments was assigned. -/
theorem mem_of_empty_update {pairs : List (κ × β)} {key : κ} {value : β}
    (h : (empty : Dict κ β).update pairs key = some value) : (key, value) ∈ pairs := by
  by_cases hkey : key ∈ pairs.map Prod.fst
  · obtain ⟨value', hmem, hvalue⟩ := (empty : Dict κ β).update_of_mem hkey
    rw [hvalue, Option.some.injEq] at h
    rw [← h]
    exact hmem
  · rw [update_of_not_mem _ hkey] at h
    cases h

/-- What a dictionary holds after one removal. -/
theorem erase_eq_some {d : Dict κ β} {key key' : κ} {value : β} (h : d.erase key key' = some value) :
    key' ≠ key ∧ d key' = some value := by
  by_cases hkey : key' = key
  · subst hkey
    have hnone : d.erase key' key' = none := Function.update_self ..
    rw [hnone] at h
    cases h
  · have hsame : d.erase key key' = d key' := Function.update_of_ne hkey ..
    exact ⟨hkey, hsame ▸ h⟩

/-! #### Records under their own keys -/

/-- Every record is held under its own key. -/
def Owned (key : β → κ) (d : Dict κ β) : Prop := ∀ k b, d k = some b → key b = k

omit [DecidableEq κ] in
theorem owned_empty (key : β → κ) : Owned key (empty : Dict κ β) := by
  intro k b h
  cases h

theorem Owned.set {key : β → κ} {d : Dict κ β} (h : Owned key d) (b : β) :
    Owned key (d.set (key b) b) := by
  intro k b' hk
  obtain ⟨rfl, rfl⟩ | ⟨-, hold⟩ := set_eq_some hk
  · rfl
  · exact h k b' hold

theorem Owned.update {key : β → κ} {d : Dict κ β} (h : Owned key d) (bs : List β) :
    Owned key (d.update (bs.map fun b => (key b, b))) := by
  induction bs generalizing d with
  | nil => exact h
  | cons b rest ih => exact ih (h.set b)

/-- Every key of the first dictionary is a key of the second. -/
def Within (d d' : Dict κ β) : Prop := ∀ k, d k ≠ none → d' k ≠ none

omit [DecidableEq κ] in
theorem Within.refl (d : Dict κ β) : Within d d := fun _ h => h

theorem set_ne_none {d : Dict κ β} {key k : κ} {value : β} (h : d k ≠ none ∨ k = key) :
    d.set key value k ≠ none := by
  by_cases hk : k = key
  · subst hk
    rw [set_self]
    exact Option.some_ne_none _
  · rw [set_of_ne d value hk]
    exact h.resolve_right hk

theorem within_set (d : Dict κ β) (key : κ) (value : β) : Within d (d.set key value) :=
  fun _ h => set_ne_none (Or.inl h)

theorem update_ne_none {d : Dict κ β} {pairs : List (κ × β)} {k : κ}
    (h : d k ≠ none ∨ k ∈ pairs.map Prod.fst) : d.update pairs k ≠ none := by
  induction pairs generalizing d with
  | nil => exact h.resolve_right (by simp)
  | cons pair rest ih =>
      refine ih ?_
      rw [List.map_cons, List.mem_cons] at h
      obtain hold | hkey | hrest := h
      · exact Or.inl (within_set d _ _ k hold)
      · exact Or.inl (set_ne_none (Or.inr hkey))
      · exact Or.inr hrest

end Dict

end Evleda
