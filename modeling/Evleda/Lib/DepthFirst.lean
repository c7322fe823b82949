/-
A depth-first walk that stops at a cycle.

The walk keeps two sets: what it is visiting, which is the path it came by, and
what it has visited.  The calls nest, and the machine that makes them has room for
so many.

What happens is told by the calls alone.  `Called tried stack a` says that the walk
tries `a` below the path `stack`, having tried `tried` before.  As long as nothing
tried reaches a cycle, what has been visited is exactly what is reached from what was
tried, and so each call is made unless the room ran out before.

Whether there is a cycle is, for finitely many elements, whether they can be put in
an order in which everything comes after what is next to it.
-/
import Evleda.Lib.Collections
import Evleda.Lib.Outcome
import Mathlib.Data.Finset.Card
import Mathlib.Logic.Relation

namespace Evleda.DepthFirst

variable {α ε : Type} [DecidableEq α]

/-! ### The walk -/

/-- The path to where the walk is, the last one first, and what is done with. -/
structure Walk (α : Type) where
  visiting : List α
  visited : List α

/-- Visit an element with room for so many nested calls. -/
def visit (next : α → List α) (cyclic deep : ε) : Nat → α → Walk α → Except ε (Walk α)
  | 0, _, _ => .error deep
  | room + 1, a, w =>
      if a ∈ w.visiting then .error cyclic
      else if a ∈ w.visited then .ok w
      else do
        let w ← (next a).foldlM (fun w b => visit next cyclic deep room b w)
          { w with visiting := a :: w.visiting }
        return { visiting := w.visiting.erase a, visited := a :: w.visited }

/-- Visit one element after the other. -/
def visitAll (next : α → List α) (cyclic deep : ε) (room : Nat) (items : List α) (w : Walk α) :
    Except ε (Walk α) :=
  items.foldlM (fun w a => visit next cyclic deep room a w) w

/-! ### What is reached -/

section Graph

variable (next : α → List α)

omit [DecidableEq α]

def Edge (a b : α) : Prop := b ∈ next a

def Reaches : α → α → Prop := Relation.ReflTransGen (Edge next)

def ReachesCycle (a : α) : Prop := ∃ c, Reaches next a c ∧ Relation.TransGen (Edge next) c c

variable {next}

theorem ReachesCycle.of_reaches {a b : α} (h : ReachesCycle next b) (hab : Reaches next a b) :
    ReachesCycle next a := by
  obtain ⟨c, hbc, hc⟩ := h
  exact ⟨c, hab.trans hbc, hc⟩

theorem reaches_iff {a x : α} : Reaches next a x ↔ x = a ∨ ∃ b ∈ next a, Reaches next b x := by
  constructor
  · intro h
    rcases Relation.ReflTransGen.cases_head h with rfl | ⟨b, hab, hbx⟩
    · exact Or.inl rfl
    · exact Or.inr ⟨b, hab, hbx⟩
  · rintro (rfl | ⟨b, hab, hbx⟩)
    · exact Relation.ReflTransGen.refl
    · exact Relation.ReflTransGen.head hab hbx

theorem reachesCycle_iff {a : α} : ReachesCycle next a ↔ ∃ b ∈ next a, ReachesCycle next b := by
  constructor
  · rintro ⟨c, hac, hc⟩
    rcases reaches_iff.mp hac with rfl | ⟨b, hab, hbc⟩
    · obtain ⟨b, hab, hba⟩ := Relation.TransGen.head'_iff.mp hc
      exact ⟨b, hab, c, hba, hc⟩
    · exact ⟨b, hab, c, hbc, hc⟩
  · rintro ⟨b, hab, hb⟩
    exact hb.of_reaches (Relation.ReflTransGen.single hab)

/-! ### The calls -/

/-- The walk over some roots tries an element below a path, having tried others before. -/
inductive Called (next : α → List α) (roots : List α) : List α → List α → α → Prop
  | root {before after : List α} {a : α} (h : roots = before ++ a :: after) :
      Called next roots before [] a
  | inside {tried stack before after : List α} {a b : α} (h : Called next roots tried stack a)
      (hnew : a ∉ stack) (hfresh : ∀ t ∈ tried, ¬ Reaches next t a)
      (hnext : next a = before ++ b :: after) :
      Called next roots (tried ++ before) (a :: stack) b

/-- Nothing tried reaches a cycle. -/
def Sound (next : α → List α) (tried : List α) : Prop := ∀ t ∈ tried, ¬ ReachesCycle next t

/-- Some call is made below `depth` others. -/
def CallsBelow (next : α → List α) (roots : List α) (depth : Nat) : Prop :=
  ∃ tried stack a, Called next roots tried stack a ∧ Sound next tried ∧ stack.length = depth

theorem Called.leads {roots tried stack : List α} {a : α} (h : Called next roots tried stack a) :
    ∀ x ∈ stack, Relation.TransGen (Edge next) x a := by
  induction h with
  | root => simp
  | inside _ _ _ hnext ih =>
      rename_i a b _ _ _
      intro x hx
      have hedge : Edge next a b := by
        unfold Edge
        rw [hnext]
        exact List.mem_append_right _ List.mem_cons_self
      rcases List.mem_cons.mp hx with rfl | hx
      · exact Relation.TransGen.single hedge
      · exact (ih x hx).tail hedge

/-- The state of the walk at a call. -/
structure Walk.At (next : α → List α) (tried stack : List α) (w : Walk α) : Prop where
  visiting : w.visiting = stack
  visited : ∀ x, x ∈ w.visited ↔ ∃ t ∈ tried, Reaches next t x

end Graph

/-! ### What a visit comes to -/

section Visits

variable {next : α → List α} {roots : List α} {cyclic deep : ε}

/-- What visiting some elements below a path may come to: they are visited and reach no cycle, or one
of them reaches one, or a call was made for which there was no room. -/
def Explains (next : α → List α) (roots : List α) (cyclic deep : ε) (room : Nat)
    (tried stack items : List α) : Except ε (Walk α) → Prop
  | .ok w => w.At next (tried ++ items) stack ∧ Sound next (tried ++ items)
  | .error e =>
      (e = cyclic ∧ ∃ a ∈ items, ReachesCycle next a) ∨
        (e = deep ∧ CallsBelow next roots (stack.length + room))

theorem visitAll_explains {room : Nat}
    (hvisit : ∀ (a : α) (tried stack : List α) (w : Walk α), Called next roots tried stack a →
      Sound next tried → w.At next tried stack →
      Explains next roots cyclic deep room tried stack [a] (visit next cyclic deep room a w))
    (items : List α) : ∀ (tried stack : List α) (w : Walk α),
      (∀ before a after, items = before ++ a :: after →
        Called next roots (tried ++ before) stack a) →
      Sound next tried → w.At next tried stack →
      Explains next roots cyclic deep room tried stack items
        (visitAll next cyclic deep room items w) := by
  induction items with
  | nil =>
      intro tried stack w _ hsound hat
      show w.At next (tried ++ []) stack ∧ Sound next (tried ++ [])
      rw [List.append_nil]
      exact ⟨hat, hsound⟩
  | cons a items ih =>
      intro tried stack w hcalled hsound hat
      have hfirst := hvisit a tried stack w (by simpa using hcalled [] a items rfl) hsound hat
      have hrun : visitAll next cyclic deep room (a :: items) w =
          (visit next cyclic deep room a w >>= visitAll next cyclic deep room items) :=
        List.foldlM_cons
      rw [hrun]
      cases hresult : visit next cyclic deep room a w with
      | error e =>
          rw [hresult] at hfirst
          rcases hfirst with ⟨he, b, hb, hcycle⟩ | hdeep
          · obtain rfl := List.mem_singleton.mp hb
            exact Or.inl ⟨he, b, List.mem_cons_self, hcycle⟩
          · exact Or.inr hdeep
      | ok m =>
          rw [hresult] at hfirst
          have hrest := ih (tried ++ [a]) stack m (fun before b after heq => by
            have := hcalled (a :: before) b after (by rw [heq]; rfl)
            rwa [List.append_cons] at this) hfirst.2 hfirst.1
          show Explains next roots cyclic deep room tried stack (a :: items)
            (visitAll next cyclic deep room items m)
          cases hlast : visitAll next cyclic deep room items m with
          | ok w' =>
              rw [hlast] at hrest
              show w'.At next (tried ++ a :: items) stack ∧ Sound next (tried ++ a :: items)
              rw [List.append_cons]
              exact hrest
          | error e =>
              rw [hlast] at hrest
              rcases hrest with ⟨he, b, hb, hcycle⟩ | hdeep
              · exact Or.inl ⟨he, b, List.mem_cons_of_mem _ hb, hcycle⟩
              · exact Or.inr hdeep

omit [DecidableEq α] in
/-- Below an element that is neither on the path nor reached before, everything next to it is
called. -/
theorem calls_next {tried stack : List α} {a : α} (hcalled : Called next roots tried stack a)
    (hnew : a ∉ stack) (hfresh : ∀ t ∈ tried, ¬ Reaches next t a) :
    ∀ before b after, next a = before ++ b :: after →
      Called next roots (tried ++ before) (a :: stack) b :=
  fun _ _ _ hnext => hcalled.inside hnew hfresh hnext

/-- **What a visit comes to.** -/
theorem visit_explains (room : Nat) : ∀ (a : α) (tried stack : List α) (w : Walk α),
    Called next roots tried stack a → Sound next tried → w.At next tried stack →
      Explains next roots cyclic deep room tried stack [a] (visit next cyclic deep room a w) := by
  induction room with
  | zero =>
      intro a tried stack w hcalled hsound _
      exact Or.inr ⟨rfl, tried, stack, a, hcalled, hsound, rfl⟩
  | succ room ih =>
      intro a tried stack w hcalled hsound hat
      rw [visit]
      split
      · rename_i hvisiting
        rw [hat.visiting] at hvisiting
        exact Or.inl ⟨rfl, a, List.mem_singleton_self a, a, Relation.ReflTransGen.refl,
          hcalled.leads a hvisiting⟩
      split
      · rename_i hvisited
        obtain ⟨t, ht, hta⟩ := (hat.visited a).mp hvisited
        have hsound' : Sound next (tried ++ [a]) := by
          intro x hx
          rcases List.mem_append.mp hx with hx | hx
          · exact hsound x hx
          · obtain rfl := List.mem_singleton.mp hx
            exact fun hcycle => hsound t ht (hcycle.of_reaches hta)
        refine ⟨⟨hat.visiting, fun x => ?_⟩, hsound'⟩
        rw [hat.visited x]
        constructor
        · rintro ⟨t', ht', htx⟩
          exact ⟨t', List.mem_append_left _ ht', htx⟩
        · rintro ⟨t', ht', htx⟩
          rcases List.mem_append.mp ht' with ht' | ht'
          · exact ⟨t', ht', htx⟩
          · obtain rfl := List.mem_singleton.mp ht'
            exact ⟨t, ht, hta.trans htx⟩
      · rename_i hvisiting hvisited
        rw [hat.visiting] at hvisiting
        have hfresh : ∀ t ∈ tried, ¬ Reaches next t a := by
          intro t ht hta
          exact hvisited ((hat.visited a).mpr ⟨t, ht, hta⟩)
        have hbelow := visitAll_explains ih (next a) tried (a :: stack)
          { w with visiting := a :: w.visiting } (calls_next hcalled hvisiting hfresh) hsound
          ⟨by rw [hat.visiting], hat.visited⟩
        unfold visitAll at hbelow
        cases hresult : (next a).foldlM (fun w b => visit next cyclic deep room b w)
            { w with visiting := a :: w.visiting } with
        | error e =>
            rw [hresult] at hbelow
            rcases hbelow with ⟨he, b, hb, hcycle⟩ | ⟨he, hdeep⟩
            · exact Or.inl ⟨he, a, List.mem_singleton_self a,
                reachesCycle_iff.mpr ⟨b, hb, hcycle⟩⟩
            · refine Or.inr ⟨he, ?_⟩
              rw [List.length_cons] at hdeep
              rwa [show stack.length + (room + 1) = stack.length + 1 + room by omega]
        | ok m =>
            rw [hresult] at hbelow
            obtain ⟨hat', hsound'⟩ := hbelow
            have hvisiting' : m.visiting.erase a = stack := by
              rw [hat'.visiting, List.erase_cons_head]
            refine ⟨⟨hvisiting', fun x => ?_⟩, fun x hx => ?_⟩
            · rw [List.mem_cons, hat'.visited x]
              constructor
              · rintro (rfl | ⟨t, ht, htx⟩)
                · exact ⟨x, List.mem_append_right _ (List.mem_singleton_self x),
                    Relation.ReflTransGen.refl⟩
                · rcases List.mem_append.mp ht with ht | ht
                  · exact ⟨t, List.mem_append_left _ ht, htx⟩
                  · exact ⟨a, List.mem_append_right _ (List.mem_singleton_self a),
                      reaches_iff.mpr (Or.inr ⟨t, ht, htx⟩)⟩
              · rintro ⟨t, ht, htx⟩
                rcases List.mem_append.mp ht with ht | ht
                · exact Or.inr ⟨t, List.mem_append_left _ ht, htx⟩
                · obtain rfl := List.mem_singleton.mp ht
                  rcases reaches_iff.mp htx with rfl | ⟨b, hb, hbx⟩
                  · exact Or.inl rfl
                  · exact Or.inr ⟨b, List.mem_append_right _ hb, hbx⟩
            · rcases List.mem_append.mp hx with hx | hx
              · exact hsound x hx
              · obtain rfl := List.mem_singleton.mp hx
                intro hcycle
                obtain ⟨b, hb, hb'⟩ := reachesCycle_iff.mp hcycle
                exact hsound' b (List.mem_append_right _ hb) hb'

/-! ### Which calls are made -/

theorem visitAll_append_error {room : Nat} {before after : List α} {a : α} {w m : Walk α} {e : ε}
    (hbefore : visitAll next cyclic deep room before w = .ok m)
    (ha : visit next cyclic deep room a m = .error e) :
    visitAll next cyclic deep room (before ++ a :: after) w = .error e := by
  unfold visitAll at hbefore ⊢
  rw [List.foldlM_append, hbefore]
  show (a :: after).foldlM (fun w a => visit next cyclic deep room a w) m = .error e
  rw [List.foldlM_cons, ha]
  rfl

theorem visitAll_prefix_error {room : Nat} {before after : List α} {w : Walk α} {e : ε}
    (hbefore : visitAll next cyclic deep room before w = .error e) :
    visitAll next cyclic deep room (before ++ after) w = .error e := by
  unfold visitAll at hbefore ⊢
  rw [List.foldlM_append, hbefore]
  rfl

/-- **A call is made unless the room ran out**: the walk raises what the call raises. -/
theorem called_made (room : Nat) {tried stack : List α} {a : α}
    (hcalled : Called next roots tried stack a) (hsound : Sound next tried)
    (hroom : stack.length ≤ room) :
    visitAll next cyclic deep room roots ⟨[], []⟩ = .error deep ∨
      ∃ w : Walk α, w.At next tried stack ∧
        ∀ e, visit next cyclic deep (room - stack.length) a w = .error e →
          visitAll next cyclic deep room roots ⟨[], []⟩ = .error e := by
  induction hcalled with
  | @root before after a h =>
      have hat : Walk.At next [] [] (⟨[], []⟩ : Walk α) := ⟨rfl, by simp⟩
      have hbefore : Explains next roots cyclic deep room [] [] before
          (visitAll next cyclic deep room before ⟨[], []⟩) := visitAll_explains
        (visit_explains room) before [] [] ⟨[], []⟩ (fun before' b after' heq => by
          refine @Called.root _ next roots before' (after' ++ a :: after) b ?_
          rw [h, heq, List.append_assoc, List.cons_append]) (by simp [Sound]) hat
      cases hresult : visitAll next cyclic deep room before ⟨[], []⟩ with
      | error e =>
          rw [hresult] at hbefore
          rcases hbefore with ⟨-, b, hb, hcycle⟩ | ⟨rfl, -⟩
          · exact absurd hcycle (hsound b hb)
          · rw [h]
            exact Or.inl (visitAll_prefix_error hresult)
      | ok m =>
          rw [hresult] at hbefore
          refine Or.inr ⟨m, hbefore.1, fun e he => ?_⟩
          rw [h]
          exact visitAll_append_error hresult he
  | @inside tried stack before after a b hcalled hnew hfresh hnext ih =>
      rw [List.length_cons] at hroom ⊢
      have hsound' : Sound next tried := fun t ht => hsound t (List.mem_append_left _ ht)
      rcases ih hsound' (by omega) with hdeep | ⟨w, hat, hraises⟩
      · exact Or.inl hdeep
      obtain ⟨rest, hrest⟩ : ∃ rest, room - stack.length = rest + 1 := ⟨room - stack.length - 1, by
        omega⟩
      have hremaining : room - (stack.length + 1) = rest := by omega
      rw [hrest] at hraises
      rw [hremaining]
      have hnotVisiting : a ∉ w.visiting := by rwa [hat.visiting]
      have hnotVisited : a ∉ w.visited := by
        intro ha
        obtain ⟨t, ht, hta⟩ := (hat.visited a).mp ha
        exact hfresh t ht hta
      -- an error below the element is the error of its visit
      have hbelow : ∀ e, visitAll next cyclic deep rest (next a)
          { w with visiting := a :: w.visiting } = .error e →
          visitAll next cyclic deep room roots ⟨[], []⟩ = .error e := by
        intro e he
        apply hraises
        unfold visitAll at he
        rw [visit, if_neg hnotVisiting, if_neg hnotVisited, he]
        rfl
      have hentered : Walk.At next tried (a :: stack)
          { w with visiting := a :: w.visiting } := ⟨by rw [hat.visiting], hat.visited⟩
      have hbefore : Explains next roots cyclic deep rest tried (a :: stack) before
          (visitAll next cyclic deep rest before { w with visiting := a :: w.visiting }) :=
        visitAll_explains (visit_explains rest) before tried (a :: stack)
          { w with visiting := a :: w.visiting }
        (fun before' c after' heq => by
          refine calls_next hcalled hnew hfresh before' c (after' ++ b :: after) ?_
          rw [hnext, heq, List.append_assoc, List.cons_append]) hsound' hentered
      cases hresult : visitAll next cyclic deep rest before
          { w with visiting := a :: w.visiting } with
      | error e =>
          rw [hresult] at hbefore
          rcases hbefore with ⟨-, c, hc, hcycle⟩ | ⟨rfl, -⟩
          · exact absurd hcycle (hsound c (List.mem_append_right _ hc))
          · refine Or.inl (hbelow _ ?_)
            rw [hnext]
            exact visitAll_prefix_error hresult
      | ok m =>
          rw [hresult] at hbefore
          refine Or.inr ⟨m, hbefore.1, fun e he => hbelow e ?_⟩
          rw [hnext]
          exact visitAll_append_error hresult he

/-! ### What the walk comes to -/

theorem walk_explains (room : Nat) : Explains next roots cyclic deep room [] [] roots
    (visitAll next cyclic deep room roots ⟨[], []⟩) :=
  visitAll_explains (visit_explains room) roots [] [] ⟨[], []⟩
    (fun _ _ _ h => by simpa using Called.root h) (by simp [Sound]) ⟨rfl, by simp⟩

/-- **The walk runs out of room exactly when a call is made below as many as there is room for.** -/
theorem walk_deep_iff (hne : cyclic ≠ deep) {room : Nat} :
    visitAll next cyclic deep room roots ⟨[], []⟩ = .error deep ↔ CallsBelow next roots room := by
  constructor
  · intro h
    have hexplains : Explains next roots cyclic deep room [] [] roots _ := walk_explains room
    rw [h] at hexplains
    rcases hexplains with ⟨he, -⟩ | ⟨-, hdeep⟩
    · exact absurd he.symm hne
    · simpa using hdeep
  · rintro ⟨tried, stack, a, hcalled, hsound, rfl⟩
    rcases @called_made _ _ _ next roots cyclic deep stack.length _ _ _ hcalled hsound le_rfl with
      hdeep | ⟨w, -, hraises⟩
    · exact hdeep
    · apply hraises
      rw [Nat.sub_self, visit]

theorem walk_ok {room : Nat} {w : Walk α}
    (h : visitAll next cyclic deep room roots ⟨[], []⟩ = .ok w) : Sound next roots := by
  have hexplains : Explains next roots cyclic deep room [] [] roots _ := walk_explains room
  rw [h] at hexplains
  exact hexplains.2

/-- A walk that raises found a cycle or ran out of room. -/
theorem walk_error {room : Nat} {e : ε}
    (h : visitAll next cyclic deep room roots ⟨[], []⟩ = .error e) :
    (e = cyclic ∧ ¬ Sound next roots) ∨ e = deep := by
  have hexplains : Explains next roots cyclic deep room [] [] roots _ := walk_explains room
  rw [h] at hexplains
  rcases hexplains with ⟨he, a, ha, hcycle⟩ | ⟨he, -⟩
  · exact Or.inl ⟨he, fun hsound => hsound a ha hcycle⟩
  · exact Or.inr he

end Visits

/-! ### Orders -/

section Orders

variable {next : α → List α}

/-- Everything comes after what is next to it. -/
def Ordered (next : α → List α) (order : List α) : Prop :=
  ∀ before a after, order = before ++ a :: after → ∀ b ∈ next a, b ∈ before

omit [DecidableEq α] in
theorem Ordered.leads {order : List α} (h : Ordered next order) {c y : α}
    (hy : Relation.TransGen (Edge next) c y) :
    ∀ before after, order = before ++ c :: after → y ∈ before := by
  induction hy using Relation.TransGen.head_induction_on with
  | single hedge =>
      intro before after heq
      exact h before _ after heq _ hedge
  | head hedge _ ih =>
      rename_i c' d _
      intro before after heq
      obtain ⟨before₁, before₂, rfl⟩ := List.append_of_mem (h before c' after heq d hedge)
      refine List.mem_append_left _ (ih before₁ (before₂ ++ c' :: after) ?_)
      rw [heq, List.append_assoc, List.cons_append]

omit [DecidableEq α] in
/-- **Finitely many elements reach no cycle exactly when they can be put in order.** -/
theorem sound_iff_exists_order {items : List α} (hnodup : items.Nodup)
    (hclosed : ∀ a ∈ items, ∀ b ∈ next a, b ∈ items) :
    Sound next items ↔ ∃ order, order.Perm items ∧ Ordered next order := by
  classical
  have hreached : ∀ a ∈ items, ∀ x, Reaches next a x → x ∈ items := by
    intro a ha x hax
    induction hax with
    | refl => exact ha
    | tail _ hedge ih => exact hclosed _ ih _ hedge
  constructor
  · intro hsound
    -- order them by how many they reach
    let rank := fun a => (items.toFinset.filter (Reaches next a)).card
    have hrank : ∀ a ∈ items, ∀ b ∈ next a, rank b < rank a := by
      intro a ha b hb
      apply Finset.card_lt_card
      rw [Finset.ssubset_iff_of_subset]
      · refine ⟨a, Finset.mem_filter.mpr ⟨List.mem_toFinset.mpr ha, Relation.ReflTransGen.refl⟩,
          ?_⟩
        intro hba
        refine hsound a ha ⟨a, Relation.ReflTransGen.refl, ?_⟩
        exact Relation.TransGen.head' hb (Finset.mem_filter.mp hba).2
      · intro x hx
        rw [Finset.mem_filter] at hx ⊢
        exact ⟨hx.1, Relation.ReflTransGen.head hb hx.2⟩
    refine ⟨sortBy rank items, sortBy_perm items, ?_⟩
    intro before a after heq b hb
    have hmem : ∀ x, x ∈ before ++ a :: after ↔ x ∈ items := by
      intro x
      rw [← heq, mem_sortBy]
    have ha : a ∈ items := (hmem a).mp (List.mem_append_right _ List.mem_cons_self)
    have hlt := hrank a ha b hb
    have hsorted : SortedBy rank (sortBy rank items) := sortBy_sorted items
    rw [heq] at hsorted
    rcases List.mem_append.mp ((hmem b).mpr (hclosed a ha b hb)) with hbefore | hafter
    · exact hbefore
    · rcases List.mem_cons.mp hafter with rfl | hafter
      · exact absurd hlt (lt_irrefl _)
      · have hle := List.rel_of_pairwise_cons (List.pairwise_append.mp hsorted).2.1 hafter
        exact absurd hlt (not_lt.mpr hle)
  · rintro ⟨order, hperm, hordered⟩ a ha ⟨c, hac, hc⟩
    have hc' : c ∈ order := hperm.mem_iff.mpr (hreached a ha c hac)
    obtain ⟨before, after, heq⟩ := List.append_of_mem hc'
    have hbefore := hordered.leads hc before after heq
    have hnodup' := hperm.nodup_iff.mpr hnodup
    rw [heq] at hnodup'
    exact List.disjoint_of_nodup_append hnodup' hbefore List.mem_cons_self

end Orders

end Evleda.DepthFirst
