/-
Computations that may raise.

A Python function that raises is a function into `Except`, and a block of checks
followed by a result is a chain of binds.  A proof never wants to unfold such a
chain from the top; it wants to peel it: the whole chain returned, so its first
step returned something and the rest returned from there.

The lemmas here say that once, for a bind, for a check, for a map over a list
and for a fold, so that every other file can peel with `obtain`.
-/
import Mathlib.Data.List.Basic
import Mathlib.Data.List.Forall2
import Mathlib.Data.List.Nodup
import Mathlib.Data.List.Perm.Basic

namespace Evleda

universe u v

variable {ε : Type u} {α β : Type v}

/-- Raise `e` unless `c` holds. -/
def require (c : Prop) [Decidable c] (e : ε) : Except ε Unit :=
  if c then .ok () else .error e

/-- Make the checks of `x` only when `c` holds. -/
def requireWhen (c : Prop) [Decidable c] (x : Except ε Unit) : Except ε Unit :=
  if c then x else .ok ()

namespace Outcome

theorem bind_ok {x : Except ε α} {f : α → Except ε β} {b : β} :
    (x >>= f) = .ok b ↔ ∃ a, x = .ok a ∧ f a = .ok b := by
  cases x with
  | error e =>
      constructor
      · intro h; cases h
      · rintro ⟨a, ha, -⟩; cases ha
  | ok a =>
      constructor
      · intro h; exact ⟨a, rfl, h⟩
      · rintro ⟨a', ha, h⟩; cases ha; exact h

theorem bind_error {x : Except ε α} {f : α → Except ε β} {e : ε} :
    (x >>= f) = .error e ↔ x = .error e ∨ ∃ a, x = .ok a ∧ f a = .error e := by
  cases x with
  | error e' =>
      constructor
      · intro h; cases h; exact Or.inl rfl
      · rintro (h | ⟨a, ha, -⟩)
        · cases h; rfl
        · cases ha
  | ok a =>
      constructor
      · intro h; exact Or.inr ⟨a, rfl, h⟩
      · rintro (h | ⟨a', ha, h⟩)
        · cases h
        · cases ha; exact h

/-- A computation that only checks returns nothing. -/
theorem exists_unit {p : Unit → Prop} : (∃ u, p u) ↔ p () :=
  ⟨fun ⟨_, h⟩ => h, fun h => ⟨(), h⟩⟩

theorem require_ok {c : Prop} [Decidable c] {e : ε} {u : Unit} :
    require c e = .ok u ↔ c := by
  unfold require
  split <;> simp_all

theorem require_error {c : Prop} [Decidable c] {e e' : ε} :
    require c e = .error e' ↔ ¬ c ∧ e' = e := by
  unfold require
  by_cases h : c
  · simp [h]
  · simp [h, eq_comm]

theorem requireWhen_ok {c : Prop} [Decidable c] {x : Except ε Unit} {u : Unit} :
    requireWhen c x = .ok u ↔ (c → x = .ok ()) := by
  unfold requireWhen
  split <;> simp_all

theorem pure_ok {a b : α} : (pure a : Except ε α) = .ok b ↔ a = b := by
  constructor
  · intro h; cases h; rfl
  · rintro rfl; rfl

theorem map_ok {x : Except ε α} {f : α → β} {b : β} :
    (f <$> x) = .ok b ↔ ∃ a, x = .ok a ∧ f a = b := by
  cases x with
  | error e =>
      constructor
      · intro h; cases h
      · rintro ⟨a, ha, -⟩; cases ha
  | ok a =>
      constructor
      · intro h; cases h; exact ⟨a, rfl, rfl⟩
      · rintro ⟨a', ha, rfl⟩; cases ha; rfl

/-- What is returned, read off the optional result. -/
theorem of_toOption {x : Except ε α} {a : α} (h : x.toOption = some a) : x = .ok a := by
  cases x with
  | error e => cases h
  | ok b =>
      cases h
      rfl

theorem exists_of_isSome {x : Except ε α} (h : x.toOption.isSome = true) : ∃ a, x = .ok a := by
  obtain ⟨a, ha⟩ := Option.isSome_iff_exists.mp h
  exact ⟨a, of_toOption ha⟩

theorem forM_ok {α : Type*} {f : α → Except ε PUnit.{v + 1}} {l : List α} {u : PUnit.{v + 1}} :
    l.forM f = .ok u ↔ ∀ a ∈ l, f a = .ok ⟨⟩ := by
  induction l with
  | nil =>
      constructor
      · intro _ a ha
        simp at ha
      · intro _
        rfl
  | cons a l ih =>
      have hcons : (a :: l).forM f = (f a >>= fun _ => l.forM f) := rfl
      rw [hcons, bind_ok]
      simp only [List.mem_cons, forall_eq_or_imp]
      constructor
      · rintro ⟨_, ha, hl⟩
        exact ⟨ha, ih.mp hl⟩
      · rintro ⟨ha, hl⟩
        exact ⟨⟨⟩, ha, ih.mpr hl⟩

/-- A loop that raises does so at one of its elements. -/
theorem forM_error {α : Type*} {f : α → Except ε PUnit.{v + 1}} {l : List α} {e : ε}
    (h : l.forM f = .error e) : ∃ a ∈ l, f a = .error e := by
  induction l with
  | nil => cases h
  | cons a l ih =>
      have hcons : (a :: l).forM f = (f a >>= fun _ => l.forM f) := rfl
      rw [hcons, bind_error] at h
      rcases h with h | ⟨_, -, h⟩
      · exact ⟨a, List.mem_cons_self, h⟩
      · obtain ⟨b, hb, hfb⟩ := ih h
        exact ⟨b, List.mem_cons_of_mem _ hb, hfb⟩

theorem mapM_ok {α : Type*} {β : Type v} {f : α → Except ε β} {l : List α} {l' : List β} :
    l.mapM f = .ok l' ↔ List.Forall₂ (fun a b => f a = .ok b) l l' := by
  induction l generalizing l' with
  | nil =>
      rw [List.mapM_nil, pure_ok, List.forall₂_nil_left_iff, eq_comm]
  | cons a l ih =>
      rw [List.mapM_cons, bind_ok, List.forall₂_cons_left_iff]
      simp only [bind_ok, pure_ok, ih]
      constructor
      · rintro ⟨b, hb, bs, hbs, rfl⟩
        exact ⟨b, bs, hb, hbs, rfl⟩
      · rintro ⟨b, bs, hb, hbs, rfl⟩
        exact ⟨b, hb, bs, hbs, rfl⟩

theorem mapM_mem {α : Type*} {β : Type v} {f : α → Except ε β} {l : List α} {l' : List β} {b : β}
    (h : l.mapM f = .ok l') (hb : b ∈ l') : ∃ a ∈ l, f a = .ok b := by
  have hall := mapM_ok.mp h
  clear h
  induction hall with
  | nil => simp at hb
  | cons hab _ ih =>
      rcases List.mem_cons.mp hb with rfl | hb
      · exact ⟨_, by simp, hab⟩
      · obtain ⟨a, ha, hfa⟩ := ih hb
        exact ⟨a, by simp [ha], hfa⟩

theorem mapM_image {α : Type*} {β : Type v} {f : α → Except ε β} {l : List α} {l' : List β} {a : α}
    (h : l.mapM f = .ok l') (ha : a ∈ l) : ∃ b ∈ l', f a = .ok b := by
  have hall := mapM_ok.mp h
  clear h
  induction hall with
  | nil => simp at ha
  | cons hab _ ih =>
      rcases List.mem_cons.mp ha with rfl | ha
      · exact ⟨_, by simp, hab⟩
      · obtain ⟨b, hb, hfa⟩ := ih ha
        exact ⟨b, by simp [hb], hfa⟩

/-- Rearranging what is mapped rearranges what is returned. -/
theorem mapM_perm {α : Type*} {β : Type v} {f : α → Except ε β} {l l' : List α} {r : List β}
    (hperm : l'.Perm l) (h : l.mapM f = .ok r) : ∃ r', l'.mapM f = .ok r' ∧ r'.Perm r := by
  obtain ⟨r', hr', hsame⟩ := List.perm_comp_forall₂ hperm (mapM_ok.mp h)
  exact ⟨r', mapM_ok.mpr hr', hsame⟩

theorem mapM_related {α : Type*} {β : Type v} {f : α → Except ε β} {R : α → β → Prop} {l : List α}
    (h : ∀ a ∈ l, ∃ b, f a = .ok b ∧ R a b) : ∃ l', l.mapM f = .ok l' ∧ List.Forall₂ R l l' := by
  induction l with
  | nil => exact ⟨[], rfl, .nil⟩
  | cons a l ih =>
      obtain ⟨b, hb, hab⟩ := h a (List.mem_cons_self ..)
      obtain ⟨l', hl', hall⟩ := ih fun a' ha' => h a' (List.mem_cons_of_mem _ ha')
      exact ⟨b :: l', mapM_ok.mpr (.cons hb (mapM_ok.mp hl')), .cons hab hall⟩

theorem mapM_self {f : α → Except ε α} {l : List α} (h : ∀ a ∈ l, f a = .ok a) :
    l.mapM f = .ok l :=
  mapM_ok.mpr (List.forall₂_same.mpr h)

/-- What a map returned gives the list back, where each result gives its element back. -/
theorem mapM_inverse {α : Type*} {β : Type v} {f : α → Except ε β} {g : β → α}
    (hinverse : ∀ a b, f a = .ok b → g b = a) {l : List α} {l' : List β} (h : l.mapM f = .ok l') :
    l'.map g = l := by
  have hall := mapM_ok.mp h
  clear h
  induction hall with
  | nil => rfl
  | cons hab _ ih => rw [List.map_cons, ih, hinverse _ _ hab]

theorem foldlM_cons_ok {α : Type*} {σ : Type v} {f : σ → α → Except ε σ} {s s' : σ} {a : α}
    {l : List α} :
    (a :: l).foldlM f s = .ok s' ↔ ∃ m, f s a = .ok m ∧ l.foldlM f m = .ok s' := by
  rw [List.foldlM_cons, bind_ok]

theorem foldlM_append_ok {α : Type*} {σ : Type v} {f : σ → α → Except ε σ} {s s' : σ}
    {l l' : List α} :
    (l ++ l').foldlM f s = .ok s' ↔ ∃ m, l.foldlM f s = .ok m ∧ l'.foldlM f m = .ok s' := by
  rw [List.foldlM_append, bind_ok]

/-- A fold over the parts is a fold over the whole. -/
theorem foldlM_flatMap {α β : Type*} {σ : Type v} {f : σ → β → Except ε σ} (parts : α → List β)
    (l : List α) (s : σ) :
    (l.flatMap parts).foldlM f s = l.foldlM (fun s a => (parts a).foldlM f s) s := by
  induction l generalizing s with
  | nil => rfl
  | cons a l ih =>
      rw [List.flatMap_cons, List.foldlM_append, List.foldlM_cons]
      exact congrArg _ (funext ih)

/-- A fold that collects what each element gives, no two under one key, and makes a check on each
element. -/
theorem foldlM_collect {α κ : Type*} {β : Type v} {step : List β → α → Except ε (List β)}
    (Passes : α → Prop) (given : α → Option β) (key : β → κ)
    (hstep : ∀ seen a seen', step seen a = .ok seen' ↔
      Passes a ∧ (∀ b ∈ given a, key b ∉ seen.map key) ∧ seen' = seen ++ (given a).toList)
    {l : List α} {seen seen' : List β} (hseen : (seen.map key).Nodup) :
    l.foldlM step seen = .ok seen' ↔
      (∀ a ∈ l, Passes a) ∧ ((seen ++ l.filterMap given).map key).Nodup ∧
        seen' = seen ++ l.filterMap given := by
  induction l generalizing seen with
  | nil =>
      rw [List.foldlM_nil, pure_ok, List.filterMap_nil, List.append_nil, eq_comm]
      simp [hseen]
  | cons a l ih =>
      rw [foldlM_cons_ok, List.forall_mem_cons]
      have happend : seen ++ (a :: l).filterMap given =
          (seen ++ (given a).toList) ++ l.filterMap given := by
        cases hgiven : given a <;> simp [hgiven]
      rw [happend]
      have hnext : (∀ b ∈ given a, key b ∉ seen.map key) ↔
          ((seen ++ (given a).toList).map key).Nodup := by
        rw [List.map_append, List.nodup_append]
        cases hgiven : given a with
        | none => simp [hseen]
        | some b => simp [hseen]
      constructor
      · rintro ⟨middle, ha, hl⟩
        obtain ⟨hpasses, hfresh, rfl⟩ := (hstep _ _ _).mp ha
        obtain ⟨hrest, hnodup, rfl⟩ := (ih (hnext.mp hfresh)).mp hl
        exact ⟨⟨hpasses, hrest⟩, hnodup, rfl⟩
      · rintro ⟨⟨hpasses, hrest⟩, hnodup, rfl⟩
        have hfresh : ((seen ++ (given a).toList).map key).Nodup := by
          rw [List.map_append] at hnodup
          exact hnodup.of_append_left
        exact ⟨_, (hstep _ _ _).mpr ⟨hpasses, hnext.mpr hfresh, rfl⟩,
          (ih hfresh).mpr ⟨hrest, hnodup, rfl⟩⟩

/-- What is returned, if anything is, satisfies `P`. -/
def Returns {α : Type*} (P : α → Prop) (x : Except ε α) : Prop := ∀ a, x = .ok a → P a

namespace Returns

variable {α : Type v} {P : α → Prop}

theorem pure {a : α} (h : P a) : Returns P (pure a : Except ε α) := by
  intro a' h'
  cases h'
  exact h

theorem error {e : ε} : Returns P (.error e : Except ε α) := by
  intro a h
  cases h

/-- Only what comes last counts. -/
theorem bind {β : Type v} {x : Except ε β} {f : β → Except ε α} (hf : ∀ b, Returns P (f b)) :
    Returns P (x >>= f) := by
  intro a h
  obtain ⟨b, -, hb⟩ := bind_ok.mp h
  exact hf b a hb

end Returns

end Outcome

/-- Run a check on every element with each later one. -/
def forPairs {α : Type*} (check : α → α → Except ε Unit) : List α → Except ε Unit
  | [] => .ok ()
  | a :: rest => do
      rest.forM (check a)
      forPairs check rest

theorem Outcome.forPairs_ok {α : Type*} {check : α → α → Except ε Unit} {l : List α} {u : Unit} :
    forPairs check l = .ok u ↔ l.Pairwise (fun a b => check a b = .ok ()) := by
  induction l with
  | nil => simp [forPairs]
  | cons a rest ih =>
      rw [forPairs, bind_ok, exists_unit, forM_ok, ih, List.pairwise_cons]

end Evleda
