/-
Which task lists are accepted.

A list of tasks with distinct identifiers is to be accepted when every dependency
names a task of the list and the dependencies have no cycle, which is to say that
the tasks can be put in an order that respects them; otherwise it is to be refused
with a validation error, and the order of the list is to be of no account.  This is
what the walk decides, as long as the interpreter has room for its nested calls.

Where it has not, the walk raises the interpreter's own error: some task is tried
below as many others as calls may be nested.
-/
import Evleda.AgentRuntime.Schema

namespace Evleda.AgentRuntime

open DepthFirst Outcome

/-! ### What the answer should be -/

/-- One task names another as its dependency. -/
def DependsOn (tasks : List ProposedTask) (a b : String) : Prop :=
  ∃ task ∈ tasks, task.taskId = a ∧ b ∈ task.dependencies

/-- Every dependency names a task of the list. -/
def Known (tasks : List ProposedTask) : Prop :=
  ∀ task ∈ tasks, ∀ dependency ∈ task.dependencies, dependency ∈ tasks.map (·.taskId)

/-- No task depends on itself, directly or through others. -/
def Acyclic (tasks : List ProposedTask) : Prop :=
  ∀ a, ¬ Relation.TransGen (DependsOn tasks) a a

/-- The tasks in an order in which every dependency of a task comes before it. -/
def TopologicalOrder (tasks order : List ProposedTask) : Prop :=
  order.Perm tasks ∧ ∀ before task after, order = before ++ task :: after →
    ∀ dependency ∈ task.dependencies, dependency ∈ before.map (·.taskId)

section Answers

variable [UnicodeData]

/-- The answer is right: lists without unknown dependencies and cycles are accepted, which are those
that have a topological order, others are refused with a validation error, and the order of the list
does not matter. -/
structure Decides (room : Nat) (tasks : List ProposedTask) : Prop where
  accepts : validateTaskDag room tasks = .ok () ↔ Known tasks ∧ Acyclic tasks
  orders : validateTaskDag room tasks = .ok () ↔ Known tasks ∧ ∃ order, TopologicalOrder tasks order
  refuses : ¬ (Known tasks ∧ Acyclic tasks) →
    ∃ message, validateTaskDag room tasks = .error (.proposalValidation message)
  anyOrder : ∀ tasks', tasks'.Perm tasks →
    (validateTaskDag room tasks' = .ok () ↔ validateTaskDag room tasks = .ok ())

end Answers

/-- The identifiers in the order in which the walk tries them. -/
def roots (tasks : List ProposedTask) : List String := sortedSet (tasks.map (·.taskId))

/-- No call of the walk is made below as many others as there is room for, unless the list is
refused before the walk. -/
def FitsRoom (room : Nat) (tasks : List ProposedTask) : Prop :=
  (Known tasks ∧ ∀ task ∈ tasks, task.taskId ∉ task.dependencies) →
    ¬ CallsBelow (dependenciesOf tasks) (roots tasks) room

/-! ### Dependencies -/

theorem mem_sortedSet {items : List String} {a : String} : a ∈ sortedSet items ↔ a ∈ items := by
  rw [sortedSet, mem_sortBy, List.mem_dedup]

theorem sortedSet_eq_nil {items : List String} : sortedSet items = [] ↔ items = [] := by
  constructor
  · intro h
    rw [List.eq_nil_iff_forall_not_mem] at h ⊢
    exact fun a ha => h a (mem_sortedSet.mpr ha)
  · rintro rfl
    rfl

theorem nodup_sortedSet (items : List String) : (sortedSet items).Nodup :=
  (sortBy_perm _).nodup_iff.mpr (List.nodup_dedup items)

theorem sortedSet_perm {items items' : List String} (h : items.Perm items') :
    sortedSet items = sortedSet items' :=
  sortBy_eq_of_injective Function.injective_id h.dedup

section Distinct

variable {tasks : List ProposedTask} (hdistinct : (tasks.map (·.taskId)).Nodup)

include hdistinct

theorem dependenciesOf_eq {task : ProposedTask} (h : task ∈ tasks) :
    dependenciesOf tasks task.taskId = task.dependencies := by
  have hfind : tasks.find? (·.taskId == task.taskId) = some task := by
    rw [List.find?_eq_some_iff_append]
    obtain ⟨before, after, rfl⟩ := List.append_of_mem h
    refine ⟨by simp, before, after, rfl, ?_⟩
    intro other hother
    rw [List.map_append, List.map_cons] at hdistinct
    have hne := List.disjoint_of_nodup_append hdistinct (List.mem_map_of_mem hother)
    rw [List.mem_cons] at hne
    simpa using fun heq => hne (Or.inl heq)
  rw [dependenciesOf, hfind]
  rfl

theorem mem_dependenciesOf {a b : String} : b ∈ dependenciesOf tasks a ↔ DependsOn tasks a b := by
  constructor
  · intro h
    cases hfind : tasks.find? (·.taskId == a) with
    | none => simp [dependenciesOf, hfind] at h
    | some task =>
        have htask := List.mem_of_find?_eq_some hfind
        have hid : task.taskId = a := by simpa using List.find?_some hfind
        subst hid
        rw [dependenciesOf_eq hdistinct htask] at h
        exact ⟨task, htask, rfl, h⟩
  · rintro ⟨task, htask, rfl, h⟩
    rwa [dependenciesOf_eq hdistinct htask]

theorem edge_iff {a b : String} : Edge (dependenciesOf tasks) a b ↔ DependsOn tasks a b :=
  mem_dependenciesOf hdistinct

theorem dependenciesOf_perm {tasks' : List ProposedTask} (h : tasks'.Perm tasks) :
    dependenciesOf tasks' = dependenciesOf tasks := by
  have hdistinct' : (tasks'.map (·.taskId)).Nodup := (h.map _).nodup_iff.mpr hdistinct
  funext a
  by_cases ha : ∃ task ∈ tasks, task.taskId = a
  · obtain ⟨task, htask, rfl⟩ := ha
    rw [dependenciesOf_eq hdistinct htask, dependenciesOf_eq hdistinct' (h.mem_iff.mpr htask)]
  · have hnone : ∀ l : List ProposedTask, (∀ task ∈ l, task ∈ tasks) → dependenciesOf l a = [] := by
      intro l hl
      have hfind : l.find? (·.taskId == a) = none := by
        rw [List.find?_eq_none]
        intro task htask heq
        exact ha ⟨task, hl task htask, by simpa using heq⟩
      rw [dependenciesOf, hfind]
      rfl
    rw [hnone tasks fun _ h => h, hnone tasks' fun _ ht => h.mem_iff.mp ht]

/-- The walk's own notion of a cycle is that of the tasks. -/
theorem sound_iff_acyclic :
    Sound (dependenciesOf tasks) (roots tasks) ↔ Acyclic tasks := by
  have hsame : Edge (dependenciesOf tasks) = DependsOn tasks := by
    funext a b
    exact propext (edge_iff hdistinct)
  constructor
  · intro hsound a hcycle
    obtain ⟨b, ⟨task, htask, rfl, -⟩, -⟩ := Relation.TransGen.head'_iff.mp hcycle
    refine hsound task.taskId (mem_sortedSet.mpr (List.mem_map_of_mem htask)) ?_
    exact ⟨task.taskId, Relation.ReflTransGen.refl, hsame ▸ hcycle⟩
  · rintro hacyclic a - ⟨c, -, hcycle⟩
    exact hacyclic c (hsame ▸ hcycle)

theorem exists_order_iff (hknown : Known tasks) :
    Acyclic tasks ↔ ∃ order, TopologicalOrder tasks order := by
  have hclosed : ∀ a ∈ roots tasks, ∀ b ∈ dependenciesOf tasks a, b ∈ roots tasks := by
    intro a _ b hb
    obtain ⟨task, htask, -, hb⟩ := (mem_dependenciesOf hdistinct).mp hb
    exact mem_sortedSet.mpr (hknown task htask b hb)
  have hroots : (roots tasks).Perm (tasks.map (·.taskId)) := by
    refine (List.perm_ext_iff_of_nodup (nodup_sortedSet _) hdistinct).mpr fun a => mem_sortedSet
  have hnodup : (roots tasks).Nodup := nodup_sortedSet _
  rw [← sound_iff_acyclic hdistinct, sound_iff_exists_order hnodup hclosed]
  constructor
  · rintro ⟨ids, hperm, hordered⟩
    have hall : List.Forall₂ (fun id task => ProposedTask.taskId task = id)
        (tasks.map (·.taskId)) tasks :=
      List.forall₂_map_left_iff.mpr (List.forall₂_same.mpr fun _ _ => rfl)
    obtain ⟨order, hsame, horder⟩ := List.perm_comp_forall₂ (hperm.trans hroots) hall
    obtain rfl : order.map (·.taskId) = ids :=
      List.forall₂_eq_eq_eq ▸ List.forall₂_map_left_iff.mpr hsame.flip
    refine ⟨order, horder, ?_⟩
    intro before task after heq dependency hdependency
    refine hordered _ task.taskId (after.map (·.taskId)) (by simp [heq]) dependency ?_
    have htask : task ∈ tasks := horder.mem_iff.mp (heq ▸ by simp)
    rwa [dependenciesOf_eq hdistinct htask]
  · rintro ⟨order, horder, hordered⟩
    refine ⟨order.map (·.taskId), (horder.map _).trans hroots.symm, ?_⟩
    intro before a after heq b hb
    obtain ⟨before', rest, rfl, rfl, hrest⟩ := List.map_eq_append_iff.mp heq
    obtain ⟨task, after', rfl, rfl, rfl⟩ := List.map_eq_cons_iff.mp hrest
    have htask : task ∈ tasks := horder.mem_iff.mp (by simp)
    rw [dependenciesOf_eq hdistinct htask] at hb
    exact hordered before' task after' rfl b hb

end Distinct

/-- A dependency of a task on itself is a cycle. -/
theorem acyclic_irreflexive {tasks : List ProposedTask} (h : Acyclic tasks) :
    ∀ task ∈ tasks, task.taskId ∉ task.dependencies :=
  fun task htask hself => h task.taskId (.single ⟨task, htask, rfl, hself⟩)

/-! ### What the code answers -/

section Code

variable [UnicodeData] {tasks : List ProposedTask}

theorem checkDependencies_ok {task : ProposedTask} :
    checkDependencies tasks task = .ok () ↔
      (∀ dependency ∈ task.dependencies, dependency ∈ tasks.map (·.taskId)) ∧
        task.taskId ∉ task.dependencies := by
  unfold checkDependencies
  rw [bind_ok, exists_unit, require_ok, require_ok,
    sortedSet_eq_nil, List.filter_eq_nil_iff]
  simp only [decide_eq_true_eq, not_not]

theorem checkDependencies_error {task : ProposedTask} {e : Failure}
    (h : checkDependencies tasks task = .error e) : ∃ message, e = .proposalValidation message := by
  unfold checkDependencies at h
  rcases bind_error.mp h with h | ⟨_, -, h⟩
  · exact ⟨_, (require_error.mp h).2⟩
  · exact ⟨_, (require_error.mp h).2⟩

theorem checks_ok : tasks.forM (checkDependencies tasks) = .ok () ↔
    Known tasks ∧ ∀ task ∈ tasks, task.taskId ∉ task.dependencies := by
  rw [forM_ok]
  simp only [checkDependencies_ok]
  exact forall₂_and

variable {room : Nat}

/-- A list is accepted when the checks pass and the walk returns. -/
theorem validateTaskDag_ok : validateTaskDag room tasks = .ok () ↔
    tasks.forM (checkDependencies tasks) = .ok () ∧
      ∃ w, visitAll (dependenciesOf tasks) (invalid "task dependencies must be acyclic")
        .recursionError room (roots tasks) ⟨[], []⟩ = .ok w := by
  unfold validateTaskDag
  rw [bind_ok, exists_unit, bind_ok]
  simp only [pure_ok, and_true]
  rfl

theorem validateTaskDag_walk {e : Failure}
    (hchecks : tasks.forM (checkDependencies tasks) = .ok ()) :
    validateTaskDag room tasks = .error e ↔
      visitAll (dependenciesOf tasks) (invalid "task dependencies must be acyclic")
        .recursionError room (roots tasks) ⟨[], []⟩ = .error e := by
  unfold validateTaskDag
  rw [hchecks]
  show (visitAll (dependenciesOf tasks) (invalid "task dependencies must be acyclic")
    .recursionError room (roots tasks) ⟨[], []⟩ >>= fun _ => pure ()) = _ ↔ _
  rw [bind_error]
  constructor
  · rintro (h | ⟨_, -, h⟩)
    · exact h
    · cases h
  · exact Or.inl

theorem validateTaskDag_refused (room : Nat)
    (hchecks : ¬ (Known tasks ∧ ∀ task ∈ tasks, task.taskId ∉ task.dependencies)) :
    ∃ message, validateTaskDag room tasks = .error (.proposalValidation message) := by
  cases hresult : tasks.forM (checkDependencies tasks) with
  | ok u => exact absurd (checks_ok.mp hresult) hchecks
  | error e =>
      obtain ⟨task, -, htask⟩ := forM_error hresult
      obtain ⟨message, rfl⟩ := checkDependencies_error htask
      refine ⟨message, ?_⟩
      unfold validateTaskDag
      exact bind_error.mpr (Or.inl hresult)

/-- **The walk runs out of room exactly where the tasks do not fit it.** -/
theorem validateTaskDag_recursionError :
    validateTaskDag room tasks = .error .recursionError ↔ ¬ FitsRoom room tasks := by
  unfold FitsRoom
  by_cases hchecks : Known tasks ∧ ∀ task ∈ tasks, task.taskId ∉ task.dependencies
  · rw [validateTaskDag_walk (checks_ok.mpr hchecks), walk_deep_iff (by simp [invalid])]
    tauto
  · obtain ⟨message, hmessage⟩ := validateTaskDag_refused room hchecks
    rw [hmessage]
    simp [hchecks]

variable (hdistinct : (tasks.map (·.taskId)).Nodup)

include hdistinct

/-- A list that is accepted has no unknown dependency and no cycle. -/
theorem valid_of_ok (h : validateTaskDag room tasks = .ok ()) :
    Known tasks ∧ Acyclic tasks := by
  obtain ⟨hchecks, w, hwalk⟩ := validateTaskDag_ok.mp h
  exact ⟨(checks_ok.mp hchecks).1, (sound_iff_acyclic hdistinct).mp (walk_ok hwalk)⟩

/-- A list that is refused, with room enough, has an unknown dependency or a cycle. -/
theorem invalid_of_error {e : Failure} (h : validateTaskDag room tasks = .error e)
    (hroom : e ≠ .recursionError) :
    ¬ (Known tasks ∧ Acyclic tasks) ∧ ∃ message, e = .proposalValidation message := by
  by_cases hchecks : Known tasks ∧ ∀ task ∈ tasks, task.taskId ∉ task.dependencies
  · rcases walk_error ((validateTaskDag_walk (checks_ok.mpr hchecks)).mp h) with ⟨rfl, hcycle⟩ | he
    · exact ⟨fun hvalid => hcycle ((sound_iff_acyclic hdistinct).mpr hvalid.2), _, rfl⟩
    · exact absurd he hroom
  · obtain ⟨message, hmessage⟩ := validateTaskDag_refused room hchecks
    obtain rfl := Except.error.inj (hmessage.symm.trans h)
    exact ⟨fun hvalid => hchecks ⟨hvalid.1, acyclic_irreflexive hvalid.2⟩, message, rfl⟩

/-- The order of the list does not matter. -/
theorem validateTaskDag_perm {tasks' : List ProposedTask} (hperm : tasks'.Perm tasks) :
    validateTaskDag room tasks' = .ok () ↔ validateTaskDag room tasks = .ok () := by
  have hknown : Known tasks' ↔ Known tasks := by
    unfold Known
    constructor
    · intro h task htask dependency hdependency
      exact (hperm.map _).mem_iff.mp (h task (hperm.mem_iff.mpr htask) dependency hdependency)
    · intro h task htask dependency hdependency
      exact (hperm.map _).mem_iff.mpr (h task (hperm.mem_iff.mp htask) dependency hdependency)
  have hself : (∀ task ∈ tasks', task.taskId ∉ task.dependencies) ↔
      ∀ task ∈ tasks, task.taskId ∉ task.dependencies := by
    simp only [hperm.mem_iff]
  have hroots : roots tasks' = roots tasks := sortedSet_perm (hperm.map _)
  rw [validateTaskDag_ok, validateTaskDag_ok, checks_ok, checks_ok, hknown, hself, hroots,
    dependenciesOf_perm hdistinct hperm]

/-- **The answer is right exactly where the walk has room**: the list is refused before the walk, or
no task is tried below as many others as calls may be nested. -/
theorem decides_iff (room : Nat) : Decides room tasks ↔ FitsRoom room tasks := by
  constructor
  · intro h
    by_contra hfits
    have hdeep := validateTaskDag_recursionError.mpr hfits
    by_cases hvalid : Known tasks ∧ Acyclic tasks
    · have haccepted := h.accepts.mpr hvalid
      rw [hdeep] at haccepted
      cases haccepted
    · obtain ⟨message, hrefused⟩ := h.refuses hvalid
      rw [hdeep] at hrefused
      cases hrefused
  · intro hfits
    have hroom : validateTaskDag room tasks ≠ .error .recursionError := by
      rw [Ne, validateTaskDag_recursionError, not_not]
      exact hfits
    have haccepts : validateTaskDag room tasks = .ok () ↔ Known tasks ∧ Acyclic tasks := by
      refine ⟨valid_of_ok hdistinct, fun hvalid => ?_⟩
      cases hresult : validateTaskDag room tasks with
      | ok u => rfl
      | error e =>
          have hne : e ≠ .recursionError := by
            rintro rfl
            exact hroom hresult
          exact absurd hvalid (invalid_of_error hdistinct hresult hne).1
    refine ⟨haccepts, ?_, ?_, fun tasks' hperm => validateTaskDag_perm hdistinct hperm⟩
    · rw [haccepts]
      exact and_congr_right fun hknown => exists_order_iff hdistinct hknown
    · intro hinvalid
      cases hresult : validateTaskDag room tasks with
      | ok u => exact absurd (haccepts.mp hresult) hinvalid
      | error e =>
          have hne : e ≠ .recursionError := by
            rintro rfl
            exact hroom hresult
          obtain ⟨-, message, rfl⟩ := invalid_of_error hdistinct hresult hne
          exact ⟨message, rfl⟩

end Code

/-! ### A chain of tasks -/

/-- The identifier of a task of the chain; the first one is the smallest. -/
def linkId (i : Nat) : String := if i = 0 then "0" else String.ofList ('t' :: Nat.toDigits 10 i)

/-- Each task depends on the next one, the last one on nothing. -/
def link (n i : Nat) : ProposedTask where
  taskId := linkId i
  role := .researcher
  objective := "Read the datasheet"
  dependencies := if i < n then [linkId (i + 1)] else []
  requiredCapabilities := []
  acceptanceChecks := ["native_drc"]
  risk := .low

def chain (n : Nat) : List ProposedTask := (List.range (n + 1)).map (link n)

theorem linkId_injective : Function.Injective linkId := by
  intro i j h
  unfold linkId at h
  split at h <;> split at h
  · omega
  · exact absurd (congrArg String.toList h) (by simp)
  · exact absurd (congrArg String.toList h) (by simp)
  · have htexts := String.ofList_injective h
    exact Json.renderNat_injective (List.cons.inj htexts).2

theorem chain_ids (n : Nat) : (chain n).map (·.taskId) = (List.range (n + 1)).map linkId := by
  rw [chain, List.map_map]
  rfl

theorem chain_distinct (n : Nat) : ((chain n).map (·.taskId)).Nodup := by
  rw [chain_ids]
  exact List.nodup_range.map linkId_injective

theorem dependenciesOf_chain {n i : Nat} (h : i < n) :
    dependenciesOf (chain n) (linkId i) = [linkId (i + 1)] := by
  have hlink : link n i ∈ chain n := List.mem_map_of_mem (List.mem_range.mpr (by omega))
  have hfound := dependenciesOf_eq (chain_distinct n) hlink
  have hnext : (link n i).dependencies = [linkId (i + 1)] := if_pos h
  rw [hnext] at hfound
  exact hfound

/-- The walk starts with the first task of the chain. -/
theorem roots_chain (n : Nat) : ∃ rest, roots (chain n) = linkId 0 :: rest := by
  have hmem : ∀ a, a ∈ roots (chain n) ↔ a ∈ (List.range (n + 1)).map linkId := by
    intro a
    rw [roots, mem_sortedSet, chain_ids]
  have hfirst : linkId 0 ∈ roots (chain n) :=
    (hmem _).mpr (List.mem_map_of_mem (List.mem_range.mpr (by omega)))
  have hsorted : SortedBy id (roots (chain n)) := sortBy_sorted _
  cases hroots : roots (chain n) with
  | nil => rw [hroots] at hfirst; simp at hfirst
  | cons a rest =>
      rw [hroots] at hfirst hsorted
      rcases List.mem_cons.mp hfirst with heq | hrest
      · exact ⟨rest, by rw [heq]⟩
      · exfalso
        have hle : a ≤ linkId 0 := List.rel_of_pairwise_cons hsorted hrest
        obtain ⟨i, -, rfl⟩ := List.mem_map.mp ((hmem a).mp (by rw [hroots]; simp))
        by_cases hi : i = 0
        · subst hi
          have hnodup : (linkId 0 :: rest).Nodup := hroots ▸ nodup_sortedSet _
          exact (List.nodup_cons.mp hnodup).1 hrest
        · refine absurd hle (not_le.mpr ?_)
          rw [String.lt_iff_toList_lt]
          simp only [linkId, if_neg hi, if_true, String.toList_ofList]
          exact List.Lex.rel (by decide)

theorem called_chain {n i : Nat} (h : i ≤ n) :
    ∃ stack, Called (dependenciesOf (chain n)) (roots (chain n)) [] stack (linkId i) ∧
      stack.length = i ∧ ∀ a ∈ stack, ∃ j < i, a = linkId j := by
  induction i with
  | zero =>
      obtain ⟨rest, hrest⟩ := roots_chain n
      exact ⟨[], @Called.root _ _ _ [] rest _ hrest, rfl, by simp⟩
  | succ i ih =>
      obtain ⟨stack, hcalled, hlength, hstack⟩ := ih (by omega)
      have hnew : linkId i ∉ stack := by
        intro hmem
        obtain ⟨j, hj, heq⟩ := hstack _ hmem
        have := linkId_injective heq
        omega
      refine ⟨linkId i :: stack, ?_, by simp [hlength], ?_⟩
      · exact @Called.inside _ _ _ [] stack [] [] _ _ hcalled hnew (by simp)
          (dependenciesOf_chain (by omega))
      · intro a ha
        rcases List.mem_cons.mp ha with rfl | ha
        · exact ⟨i, by omega, rfl⟩
        · obtain ⟨j, hj, rfl⟩ := hstack a ha
          exact ⟨j, by omega, rfl⟩

/-- No dependency of the chain is unknown, and no task names itself. -/
theorem chain_known (n : Nat) : Known (chain n) ∧
    ∀ task ∈ chain n, task.taskId ∉ task.dependencies := by
  have hdependencies : ∀ task ∈ chain n, ∀ dependency ∈ task.dependencies,
      ∃ i < n, task.taskId = linkId i ∧ dependency = linkId (i + 1) := by
    intro task htask dependency hdependency
    obtain ⟨i, -, rfl⟩ := List.mem_map.mp htask
    simp only [link] at hdependency ⊢
    split at hdependency
    · rename_i hi
      exact ⟨i, hi, rfl, List.mem_singleton.mp hdependency⟩
    · simp at hdependency
  constructor
  · intro task htask dependency hdependency
    obtain ⟨i, hi, -, rfl⟩ := hdependencies task htask dependency hdependency
    rw [chain_ids]
    exact List.mem_map_of_mem (List.mem_range.mpr (by omega))
  · intro task htask hself
    obtain ⟨i, -, hid, hnext⟩ := hdependencies task htask _ hself
    have := linkId_injective (hid.symm.trans hnext)
    omega

theorem chain_not_fits (n : Nat) : ¬ FitsRoom n (chain n) := by
  intro h
  obtain ⟨stack, hcalled, hlength, -⟩ := called_chain (le_refl n)
  exact h (chain_known n) ⟨[], stack, linkId n, hcalled, by simp [Sound], hlength⟩

section Sample

@[reducible] def asciiData : UnicodeData where
  isControl c := c.toNat < 32 || c.toNat == 127
  isPrintable c := 32 ≤ c.toNat && c.toNat < 127
  nfc := id

attribute [local instance] asciiData

/-- With a thousand nested calls, a chain of a thousand and one tasks is not decided. -/
theorem chain_undecided :
    ((chain 1000).map (·.taskId)).Nodup ∧ ¬ Decides 1000 (chain 1000) ∧
      validateTaskDag 1000 (chain 1000) = .error .recursionError := by
  have hdeep := validateTaskDag_recursionError.mpr (chain_not_fits 1000)
  refine ⟨chain_distinct 1000, fun h => ?_, hdeep⟩
  by_cases hvalid : Known (chain 1000) ∧ Acyclic (chain 1000)
  · have haccepted := h.accepts.mpr hvalid
    rw [hdeep] at haccepted
    cases haccepted
  · obtain ⟨message, hrefused⟩ := h.refuses hvalid
    rw [hdeep] at hrefused
    cases hrefused

theorem decides_sample : Decides 1000 (chain 2) ↔ FitsRoom 1000 (chain 2) :=
  decides_iff (chain_distinct 2) 1000

end Sample

end Evleda.AgentRuntime
