/-
What differs between two readings.

A reading says what is found under every name, if anything is.  Between two of
them a name is added, removed or modified, or nothing happens to it, and two
readings under which nothing happens to any name are one reading.

A difference is three lists of names.  It reports on a set of names if it lists
each name of the set that is added, removed or modified, in its list and once,
and no other.  Reports on sets that do not meet can be put together, and a report
can be read under other names.
-/
import Mathlib
import Evleda.Lib.Collections

namespace Evleda

/-- What is found under each name. -/
abbrev Reading {κ : Type*} (ρ : κ → Type*) := (k : κ) → Option (ρ k)

namespace Reading

variable {κ : Type*} {ρ : κ → Type*} (before after : Reading ρ) (k : κ)

def Adds : Prop := before k = none ∧ after k ≠ none

def Removes : Prop := before k ≠ none ∧ after k = none

def Modifies : Prop := before k ≠ none ∧ after k ≠ none ∧ before k ≠ after k

variable {before after k}

theorem Adds.not_removes (h : Adds before after k) : ¬Removes before after k :=
  fun hremoves => hremoves.1 h.1

theorem Adds.not_modifies (h : Adds before after k) : ¬Modifies before after k :=
  fun hmodifies => hmodifies.1 h.1

theorem Removes.not_modifies (h : Removes before after k) : ¬Modifies before after k :=
  fun hmodifies => hmodifies.2.1 h.2

/-- Something happens to a name exactly when it does not read the same. -/
theorem differs_iff : Adds before after k ∨ Removes before after k ∨ Modifies before after k ↔
    before k ≠ after k := by
  unfold Adds Removes Modifies
  cases hbefore : before k with
  | none => cases hafter : after k <;> simp
  | some a => cases hafter : after k <;> simp

end Reading

/-- Lists of the names that were added, removed and modified. -/
structure Difference (κ : Type*) where
  added : List κ
  removed : List κ
  modified : List κ

namespace Difference

open Reading

variable {ι κ : Type*} {ρ : κ → Type*}

def empty : Difference κ := ⟨[], [], []⟩

instance : Append (Difference κ) where
  append d d' := ⟨d.added ++ d'.added, d.removed ++ d'.removed, d.modified ++ d'.modified⟩

/-- The same under other names. -/
def map (f : ι → κ) (d : Difference ι) : Difference κ :=
  ⟨d.added.map f, d.removed.map f, d.modified.map f⟩

/-- One difference after the other. -/
def join (ds : List (Difference κ)) : Difference κ := ds.foldr (· ++ ·) empty

@[simp] theorem append_added (d d' : Difference κ) : (d ++ d').added = d.added ++ d'.added := rfl

@[simp] theorem append_removed (d d' : Difference κ) :
    (d ++ d').removed = d.removed ++ d'.removed := rfl

@[simp] theorem append_modified (d d' : Difference κ) :
    (d ++ d').modified = d.modified ++ d'.modified := rfl

theorem map_map {ν : Type*} (g : κ → ν) (f : ι → κ) (d : Difference ι) :
    (d.map f).map g = d.map (g ∘ f) := by
  unfold map
  simp only [List.map_map]

theorem map_append (f : ι → κ) (d d' : Difference ι) : (d ++ d').map f = d.map f ++ d'.map f := by
  unfold map
  simp only [append_added, append_removed, append_modified, List.map_append]
  rfl

theorem map_join (f : ι → κ) (ds : List (Difference ι)) :
    (join ds).map f = join (ds.map (map f)) := by
  induction ds with
  | nil => rfl
  | cons d ds ih =>
      calc (join (d :: ds)).map f
          = d.map f ++ (join ds).map f := map_append f d (join ds)
        _ = join ((d :: ds).map (map f)) := by rw [ih]; rfl

/-- Of the names in `S`, the difference lists what happens between two readings, and lists no
name twice. -/
structure Reports (d : Difference κ) (S : Set κ) (before after : Reading ρ) : Prop where
  added : ∀ k, k ∈ d.added ↔ k ∈ S ∧ Adds before after k
  removed : ∀ k, k ∈ d.removed ↔ k ∈ S ∧ Removes before after k
  modified : ∀ k, k ∈ d.modified ↔ k ∈ S ∧ Modifies before after k
  addedNodup : d.added.Nodup
  removedNodup : d.removed.Nodup
  modifiedNodup : d.modified.Nodup

variable {d d' : Difference κ} {S S' : Set κ} {before after : Reading ρ}

theorem reports_empty : (empty : Difference κ).Reports ∅ before after := by
  constructor <;> simp [empty]

/-- No name is in two of the lists, nor twice in one. -/
theorem Reports.nodup (h : d.Reports S before after) :
    (d.added ++ d.removed ++ d.modified).Nodup := by
  refine List.nodup_append'.mpr ⟨List.nodup_append'.mpr ⟨h.addedNodup, h.removedNodup, ?_⟩,
    h.modifiedNodup, ?_⟩
  · intro k hadded hremoved
    exact ((h.added k).mp hadded).2.not_removes ((h.removed k).mp hremoved).2
  · intro k hk hmodified
    have hmodifies := ((h.modified k).mp hmodified).2
    rcases List.mem_append.mp hk with hk | hk
    · exact ((h.added k).mp hk).2.not_modifies hmodifies
    · exact ((h.removed k).mp hk).2.not_modifies hmodifies

/-- Nothing is listed exactly when every name of the set reads the same. -/
theorem Reports.nothing_iff (h : d.Reports S before after) :
    d.added = [] ∧ d.removed = [] ∧ d.modified = [] ↔ ∀ k ∈ S, before k = after k := by
  simp only [List.eq_nil_iff_forall_not_mem, h.added, h.removed, h.modified]
  constructor
  · rintro ⟨hadded, hremoved, hmodified⟩ k hk
    by_contra hne
    rcases differs_iff.mpr hne with hadds | hremoves | hmodifies
    · exact hadded k ⟨hk, hadds⟩
    · exact hremoved k ⟨hk, hremoves⟩
    · exact hmodified k ⟨hk, hmodifies⟩
  · intro hsame
    refine ⟨?_, ?_, ?_⟩
    · rintro k ⟨hk, hadds⟩
      exact differs_iff.mp (.inl hadds) (hsame k hk)
    · rintro k ⟨hk, hremoves⟩
      exact differs_iff.mp (.inr (.inl hremoves)) (hsame k hk)
    · rintro k ⟨hk, hmodifies⟩
      exact differs_iff.mp (.inr (.inr hmodifies)) (hsame k hk)

/-- Two lists without repetitions on sets that do not meet, as one. -/
theorem nodup_append_of_disjoint {l m : List κ} (hl : l.Nodup) (hm : m.Nodup)
    (hS : ∀ k ∈ l, k ∈ S) (hS' : ∀ k ∈ m, k ∈ S') (hdisjoint : Disjoint S S') :
    (l ++ m).Nodup :=
  List.nodup_append'.mpr ⟨hl, hm, fun k hk hk' =>
    Set.disjoint_left.mp hdisjoint (hS k hk) (hS' k hk')⟩

theorem Reports.append (h : d.Reports S before after) (h' : d'.Reports S' before after)
    (hdisjoint : Disjoint S S') : (d ++ d').Reports (S ∪ S') before after where
  added k := by
    rw [append_added, List.mem_append, h.added, h'.added, Set.mem_union, or_and_right]
  removed k := by
    rw [append_removed, List.mem_append, h.removed, h'.removed, Set.mem_union, or_and_right]
  modified k := by
    rw [append_modified, List.mem_append, h.modified, h'.modified, Set.mem_union, or_and_right]
  addedNodup := nodup_append_of_disjoint h.addedNodup h'.addedNodup
    (fun k hk => ((h.added k).mp hk).1) (fun k hk => ((h'.added k).mp hk).1) hdisjoint
  removedNodup := nodup_append_of_disjoint h.removedNodup h'.removedNodup
    (fun k hk => ((h.removed k).mp hk).1) (fun k hk => ((h'.removed k).mp hk).1) hdisjoint
  modifiedNodup := nodup_append_of_disjoint h.modifiedNodup h'.modifiedNodup
    (fun k hk => ((h.modified k).mp hk).1) (fun k hk => ((h'.modified k).mp hk).1) hdisjoint

theorem reports_join {f : ι → Difference κ} {T : ι → Set κ} {is : List ι}
    (h : ∀ i ∈ is, (f i).Reports (T i) before after)
    (hdisjoint : is.Pairwise (fun i j => Disjoint (T i) (T j))) :
    (join (is.map f)).Reports {k | ∃ i ∈ is, k ∈ T i} before after := by
  induction is with
  | nil =>
      have hempty : {k | ∃ j ∈ ([] : List ι), k ∈ T j} = ∅ := by simp
      rw [hempty]
      exact reports_empty
  | cons i is ih =>
      obtain ⟨hi, his⟩ := List.pairwise_cons.mp hdisjoint
      have hrest := ih (fun j hj => h j (List.mem_cons_of_mem _ hj)) his
      have hapart : Disjoint (T i) {k | ∃ j ∈ is, k ∈ T j} := by
        refine Set.disjoint_left.mpr ?_
        rintro k hk ⟨j, hj, hkj⟩
        exact Set.disjoint_left.mp (hi j hj) hk hkj
      have hunion : {k | ∃ j ∈ i :: is, k ∈ T j} = T i ∪ {k | ∃ j ∈ is, k ∈ T j} := by
        ext k
        simp only [List.mem_cons, Set.mem_ofPred_eq, Set.mem_union, or_and_right, exists_or,
          exists_eq_left]
      rw [hunion]
      exact (h i List.mem_cons_self).append hrest hapart

/-- A report on all names is one on the names they are mapped to. -/
theorem Reports.map {f : ι → κ} {d : Difference ι} (hf : Function.Injective f)
    (h : d.Reports Set.univ (fun i => before (f i)) (fun i => after (f i))) :
    (d.map f).Reports (Set.range f) before after := by
  have hlist : ∀ {l : List ι} {P : κ → Prop}, (∀ i, i ∈ l ↔ i ∈ Set.univ ∧ P (f i)) →
      ∀ k, k ∈ l.map f ↔ k ∈ Set.range f ∧ P k := by
    intro l P hl k
    rw [List.mem_map]
    constructor
    · rintro ⟨i, hi, rfl⟩
      exact ⟨⟨i, rfl⟩, ((hl i).mp hi).2⟩
    · rintro ⟨⟨i, rfl⟩, hP⟩
      exact ⟨i, (hl i).mpr ⟨trivial, hP⟩, rfl⟩
  exact ⟨hlist h.added, hlist h.removed, hlist h.modified, h.addedNodup.map hf,
    h.removedNodup.map hf, h.modifiedNodup.map hf⟩

/-! ### Two collections -/

section Collections

variable {α : Type*} [LinearOrder κ] (identity : α → κ)

/-- The items by their identities, the last under each. -/
def byIdentity (items : List α) : Dict κ α :=
  Dict.empty.update (items.map fun item => (identity item, item))

/-- The identities in order that satisfy a test, each once. -/
def identities (items : List α) (p : κ → Bool) : List κ :=
  sortBy id ((items.map identity).dedup.filter p)

/-- The identities that only one collection has, and those whose items differ. -/
def ofItems [DecidableEq α] (beforeItems afterItems : List α) : Difference κ :=
  let before := byIdentity identity beforeItems
  let after := byIdentity identity afterItems
  { added := identities identity afterItems fun k => (before k).isNone
    removed := identities identity beforeItems fun k => (after k).isNone
    modified := identities identity beforeItems fun k => (after k).isSome && before k ≠ after k }

variable {identity} {items beforeItems afterItems : List α} {k : κ}

theorem byIdentity_ne_none : byIdentity identity items k ≠ none ↔ k ∈ items.map identity := by
  have hkeys : (items.map fun item => (identity item, item)).map Prod.fst =
      items.map identity := by
    rw [List.map_map]
    rfl
  unfold byIdentity
  constructor
  · intro hne
    by_contra hk
    exact hne (Dict.update_of_not_mem _ (hkeys ▸ hk))
  · intro hk
    obtain ⟨item, -, hitem⟩ := Dict.empty.update_of_mem (hkeys.symm ▸ hk)
    rw [hitem]
    exact Option.some_ne_none item

/-- Without repeated identities the item under one is the one that is found. -/
theorem byIdentity_eq_find? (hnodup : (items.map identity).Nodup) (k : κ) :
    byIdentity identity items k = items.find? (fun item => identity item == k) := by
  by_cases hk : k ∈ items.map identity
  · obtain ⟨item, hitem, rfl⟩ := List.mem_map.mp hk
    rw [find?_of_nodup hnodup hitem rfl]
    refine Dict.update_eq_of_mem _ (List.mem_map.mpr ⟨item, hitem, rfl⟩) ?_
    intro other hother
    obtain ⟨item', hitem', heq⟩ := List.mem_map.mp hother
    obtain ⟨hidentity, rfl⟩ := Prod.mk.inj heq
    exact List.inj_on_of_nodup_map hnodup hitem' hitem hidentity
  · have hnone : byIdentity identity items k = none := by
      by_contra hne
      exact hk (byIdentity_ne_none.mp hne)
    rw [hnone, eq_comm, List.find?_eq_none]
    intro item hitem heq
    exact hk (List.mem_map.mpr ⟨item, hitem, beq_iff_eq.mp heq⟩)

theorem mem_identities {p : κ → Bool} :
    k ∈ identities identity items p ↔ k ∈ items.map identity ∧ p k = true := by
  unfold identities
  rw [mem_sortBy, List.mem_filter, List.mem_dedup]

theorem nodup_identities (items : List α) (p : κ → Bool) :
    (identities identity items p).Nodup := by
  unfold identities
  exact (sortBy_perm _).nodup_iff.mpr ((List.nodup_dedup _).filter p)

/-- **The difference of two collections reports on every identity.** -/
theorem ofItems_reports [DecidableEq α] :
    (ofItems identity beforeItems afterItems).Reports Set.univ
      (byIdentity identity beforeItems) (byIdentity identity afterItems) where
  added k := by
    simp only [ofItems, mem_identities, ← byIdentity_ne_none, Option.isNone_iff_eq_none,
      Set.mem_univ, true_and, Adds, and_comm]
  removed k := by
    simp only [ofItems, mem_identities, ← byIdentity_ne_none, Option.isNone_iff_eq_none,
      Set.mem_univ, true_and, Removes]
  modified k := by
    simp only [ofItems, mem_identities, ← byIdentity_ne_none, Bool.and_eq_true,
      Option.isSome_iff_ne_none, decide_eq_true_eq, Set.mem_univ, true_and, Modifies]
  addedNodup := nodup_identities ..
  removedNodup := nodup_identities ..
  modifiedNodup := nodup_identities ..

/-- Sorted collections without repeated identities in which the same is found are the same. -/
theorem eq_of_find?_eq (hbefore : (beforeItems.map identity).Nodup)
    (hafter : (afterItems.map identity).Nodup) (hsorted : SortedBy identity beforeItems)
    (hsorted' : SortedBy identity afterItems)
    (hfind : ∀ k, beforeItems.find? (fun item => identity item == k) =
      afterItems.find? (fun item => identity item == k)) : beforeItems = afterItems := by
  refine hsorted.eq_of_perm hsorted' hbefore ?_
  refine (List.perm_ext_iff_of_nodup (List.Nodup.of_map _ hbefore)
    (List.Nodup.of_map _ hafter)).mpr ?_
  intro item
  constructor
  · intro hitem
    have hfound := find?_of_nodup hbefore hitem rfl
    rw [hfind] at hfound
    exact List.mem_of_find?_eq_some hfound
  · intro hitem
    have hfound := find?_of_nodup hafter hitem rfl
    rw [← hfind] at hfound
    exact List.mem_of_find?_eq_some hfound

end Collections

end Difference

end Evleda
