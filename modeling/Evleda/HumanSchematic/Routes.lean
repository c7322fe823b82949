/-
The routes that the search finds.

The loop is a search that corrects its labels, so its chains have no lighter way between two
of their states.  A chain that came back to a point would have bent on the way, and leaving
the point at once costs less than one bend and two steps: so no point occurs twice.
-/
import Mathlib
import Evleda.HumanSchematic.Router

namespace Evleda.HumanSchematic

open Labels

/-! ### The search behind the loop -/

/-- What one more move costs: a bend, if it turns, and a step. -/
def weight (p s : State) : Cost := cost (if s.direction ≠ p.direction then 1 else 0) 1

namespace Request

variable (r : Request)

/-- The states that a state leads to. -/
def next (p : State) : List State :=
  (Direction.order.filter fun d => r.Open (p.point.moved d)).map fun d => ⟨p.point.moved d, d⟩

/-- The states at the start. -/
def roots : Set State := {s | s.point = r.start}

variable {r} {p s t : State}

theorem mem_next : s ∈ r.next p ↔ s.point = p.point.moved s.direction ∧ r.Open s.point := by
  unfold next
  rw [List.mem_map]
  constructor
  · rintro ⟨d, hd, rfl⟩
    exact ⟨rfl, of_decide_eq_true (List.mem_filter.mp hd).2⟩
  · rintro ⟨hpoint, hopen⟩
    have hall : ∀ d : Direction, d ∈ Direction.order := by
      intro d
      cases d <;> decide
    refine ⟨s.direction, List.mem_filter.mpr ⟨hall _, decide_eq_true (hpoint ▸ hopen)⟩, ?_⟩
    cases s
    rw [State.mk.injEq]
    exact ⟨hpoint.symm, rfl⟩

theorem mem_next_of_point (hpoint : p.point = s.point) (h : t ∈ r.next s) : t ∈ r.next p := by
  rw [mem_next] at h ⊢
  rw [hpoint]
  exact h

theorem moved_ne (p : GridPoint) (d : Direction) : p ≠ p.moved d := by
  intro h
  have hzero : p.moved d 0 = p.moved d 1 := (GridPoint.moved_zero p d).trans h
  exact absurd (GridPoint.moved_inj hzero) (by decide)

variable (r) in
theorem weighted : Weighted r.next weight where
  distinct := by
    intro p
    unfold next
    refine List.Nodup.map ?_ (List.Nodup.filter _ (by decide))
    intro d d' h
    exact congrArg State.direction h
  irreflexive := by
    intro p h
    exact moved_ne _ _ (mem_next.mp h).1
  positive := by
    intro p s _
    show toLex ((0 : Nat), (0 : Nat)) < toLex (_, 1)
    exact Prod.Lex.toLex_lt_toLex'.mpr ⟨Nat.zero_le _, fun _ => Nat.one_pos⟩

/-! ### Labels of the loop -/

theorem relax_labels (r : Request) (entry : Entry) (s : Search) (d : Direction) :
    (r.relax entry s d).labels =
      if r.Open (entry.state.point.moved d) then
        s.labels.offer entry.state ⟨entry.state.point.moved d, d⟩
          (cost entry.bends entry.steps + weight entry.state ⟨entry.state.point.moved d, d⟩)
      else s.labels := by
  have hcost : cost entry.bends entry.steps + weight entry.state ⟨entry.state.point.moved d, d⟩ =
      cost (nextCost d entry).1 (nextCost d entry).2 := rfl
  unfold relax
  dsimp only
  by_cases hopen : r.Open (entry.state.point.moved d)
  · rw [if_neg (not_not.mpr hopen), if_pos hopen, hcost]
    unfold offer
    cases s.labels.costs ⟨entry.state.point.moved d, d⟩ with
    | none => rfl
    | some prior =>
        dsimp only
        by_cases hle : prior ≤ cost (nextCost d entry).1 (nextCost d entry).2
        · rw [if_pos hle, if_pos hle]
        · rw [if_neg hle, if_neg hle]
  · rw [if_pos hopen, if_neg hopen]

/-- **The loop over the directions takes the state up.** -/
theorem foldl_relax_labels (r : Request) (entry : Entry) (s : Search) :
    (Direction.order.foldl (r.relax entry) s).labels =
      s.labels.takeUp weight entry.state (cost entry.bends entry.steps) (r.next entry.state) := by
  unfold takeUp next
  generalize Direction.order = directions
  induction directions generalizing s with
  | nil => rfl
  | cons d rest ih =>
      rw [List.foldl_cons, ih, relax_labels]
      by_cases hopen : r.Open (entry.state.point.moved d)
      · rw [if_pos hopen, List.filter_cons_of_pos (by simpa using hopen), List.map_cons,
          List.foldl_cons]
      · rw [if_neg hopen, List.filter_cons_of_neg (by simpa using hopen)]

theorem push_length (queue : List Entry) (entry : Entry) :
    (Entry.push queue entry).length = queue.length + 1 :=
  List.orderedInsert_length _ _ _

/-- Taking a state up adds at most one entry for each direction. -/
theorem foldl_relax_queue (r : Request) (entry : Entry) (s : Search) :
    (Direction.order.foldl (r.relax entry) s).queue.length ≤ s.queue.length + 4 ∧
      (Direction.order.foldl (r.relax entry) s).expansions = s.expansions := by
  have hstep : ∀ (s : Search) (d : Direction), (r.relax entry s d).queue.length ≤
      s.queue.length + 1 ∧ (r.relax entry s d).expansions = s.expansions := by
    intro s d
    unfold relax
    dsimp only
    split
    · exact ⟨Nat.le_succ _, rfl⟩
    · split
      · exact ⟨(push_length _ _).le, rfl⟩
      · split
        · exact ⟨Nat.le_succ _, rfl⟩
        · exact ⟨(push_length _ _).le, rfl⟩
  have hall : ∀ (directions : List Direction) (s : Search),
      (directions.foldl (r.relax entry) s).queue.length ≤ s.queue.length + directions.length ∧
        (directions.foldl (r.relax entry) s).expansions = s.expansions := by
    intro directions
    induction directions with
    | nil => exact fun s => ⟨le_refl _, rfl⟩
    | cons d rest ih =>
        intro s
        obtain ⟨hlength, hexpansions⟩ := ih (r.relax entry s d)
        obtain ⟨hlength', hexpansions'⟩ := hstep s d
        rw [List.foldl_cons, List.length_cons]
        exact ⟨by omega, hexpansions.trans hexpansions'⟩
  exact hall Direction.order s

/-- The labels are those of a search that has not gone on from a goal. -/
def Searching (r : Request) (s : Search) : Prop :=
  ∃ takenAt, Correct r.next weight r.roots s.labels takenAt ∧
    ∀ p e, takenAt p = some e → p.point ∉ r.goals

theorem opening_labels (r : Request) (s : State) :
    (r.opening.labels.costs s = if s.point = r.start then some 0 else none) ∧
      r.opening.labels.parents s = if s.point = r.start then some none else none := by
  obtain ⟨point, direction⟩ := s
  by_cases hstart : point = r.start
  · subst hstart
    rw [if_pos rfl, if_pos rfl]
    unfold opening
    cases direction <;>
      simp [Direction.order, Dict.set, Function.update, State.mk.injEq] <;> rfl
  · rw [if_neg hstart, if_neg hstart]
    unfold opening
    simp [Direction.order, Dict.set, Dict.empty, Function.update, State.mk.injEq, hstart]

theorem opening_searching (r : Request) : Searching r r.opening := by
  refine ⟨Dict.empty, ?_, fun p e h => by cases h⟩
  constructor
  case nonneg =>
    intro s c hc
    rw [(opening_labels r s).1] at hc
    split at hc
    · exact (Option.some.inj hc).le
    · cases hc
  case root =>
    intro s hs
    have hpoint : s.point = r.start := hs
    rw [(opening_labels r s).1, (opening_labels r s).2, if_pos hpoint, if_pos hpoint]
    exact ⟨rfl, rfl⟩
  case rooted =>
    intro s hs
    rw [(opening_labels r s).2] at hs
    split at hs
    · assumption
    · cases hs
  case labelled =>
    intro s c hc
    rw [(opening_labels r s).1] at hc
    split at hc
    · exact ⟨none, by rw [(opening_labels r s).2, if_pos ‹_›]⟩
    · cases hc
  case hangs =>
    intro s p hp
    rw [(opening_labels r s).2] at hp
    split at hp <;> cases hp
  case fallen =>
    intro p e he
    cases he
  case offered =>
    intro p e he
    cases he

end Request

/-! ### Chains -/

/-- What is asked of a route. -/
structure Route (r : Request) (path : List GridPoint) : Prop where
  starts : path.head? = some r.start
  ends : ∃ goal ∈ r.goals, path.getLast? = some goal
  steps : path.IsChain fun a b => ∃ d, b = a.moved d
  distinct : path.Nodup
  clear : ∀ point ∈ path.tail, r.content.Contains point ∧ point ∉ r.static ∧
    point ∉ r.globallyOccupied
  goalOnly : ∀ point ∈ path.tail, point ∈ r.treePoints ∨ point ∈ r.allPinPositions →
    path.getLast? = some point

section Chains

variable {r : Request} {labels : Labels State Cost} {takenAt : Dict State Cost} {p s t : State}
  {w : Cost} {chain : List State}

/-- A way without a bend leads straight on. -/
theorem trail_shape (h : Correct r.next weight r.roots labels takenAt)
    (hway : Trail labels.parents weight p w s) :
    ∃ bends steps, w = cost bends steps ∧ 0 < steps ∧
      (bends = 0 → s.direction = p.direction ∧ s.point = p.point.moved p.direction steps) := by
  induction hway with
  | @one s hp =>
      obtain ⟨e, -, hmem, -⟩ := h.hangs s p hp
      refine ⟨_, 1, rfl, Nat.one_pos, fun hzero => ?_⟩
      have hsame : s.direction = p.direction := by
        by_contra hne
        rw [if_pos hne] at hzero
        exact absurd hzero (by decide)
      exact ⟨hsame, hsame ▸ (Request.mem_next.mp hmem).1⟩
  | @more q s w hway hq ih =>
      obtain ⟨bends, steps, rfl, hpos, hstraight⟩ := ih
      obtain ⟨e, -, hmem, -⟩ := h.hangs s q hq
      refine ⟨bends + (if s.direction ≠ q.direction then 1 else 0), steps + 1, rfl,
        Nat.succ_pos _, fun hzero => ?_⟩
      obtain ⟨hbends, hturn⟩ := Nat.add_eq_zero_iff.mp hzero
      obtain ⟨hdirection, hpoint⟩ := hstraight hbends
      have hsame : s.direction = q.direction := by
        by_contra hne
        rw [if_pos hne] at hturn
        exact absurd hturn (by decide)
      refine ⟨hsame.trans hdirection, ?_⟩
      rw [(Request.mem_next.mp hmem).1, hpoint, hsame, hdirection, GridPoint.moved_add]

/-- **A chain that goes on does not come back to a point.**  Leaving the point at once would be
lighter than the way round. -/
theorem point_ne_of_trail (h : Correct r.next weight r.roots labels takenAt)
    (hway : Trail labels.parents weight p w s) (ht : labels.parents t = some (some s)) :
    p.point ≠ s.point := by
  intro hpoint
  obtain ⟨bends, steps, rfl, hpos, hstraight⟩ := trail_shape h hway
  have hbends : bends ≠ 0 := by
    intro hzero
    have hmoved : p.point.moved p.direction 0 = p.point.moved p.direction steps :=
      (GridPoint.moved_zero _ _).trans (hpoint.trans (hstraight hzero).2)
    exact hpos.ne (GridPoint.moved_inj hmoved)
  obtain ⟨e, -, hmem, -⟩ := h.hangs t s ht
  have hle := h.no_shortcut (.more hway ht) (Request.mem_next_of_point hpoint hmem)
  obtain ⟨hfirst, hsecond⟩ := Prod.Lex.toLex_le_toLex'.mp
    (show toLex (bends + (if t.direction ≠ s.direction then 1 else 0), steps + 1) ≤
      toLex ((if t.direction ≠ p.direction then 1 else 0), 1) from hle)
  dsimp only at hfirst hsecond
  have hone : (if t.direction ≠ p.direction then 1 else 0) ≤ 1 := by split <;> decide
  have hsteps := hsecond (by omega)
  omega

theorem points_distinct (h : Correct r.next weight r.roots labels takenAt)
    (hchain : Traces labels.parents s chain)
    (hhead : ∀ q ∈ chain.tail, q.point ≠ s.point) : (chain.map (·.point)).Nodup := by
  induction hchain with
  | root => exact List.nodup_singleton _
  | @step s p rest hp hrest ih =>
      rw [List.map_cons, List.nodup_cons]
      constructor
      · intro hmem
        obtain ⟨q, hq, heq⟩ := List.mem_map.mp hmem
        exact hhead q hq heq
      · refine ih fun q hq => ?_
        obtain ⟨w, hway⟩ := hrest.trail weight hq
        exact point_ne_of_trail h hway hp

theorem taken_of_mem_tail (h : Correct r.next weight r.roots labels takenAt)
    (hchain : Traces labels.parents s chain) (hp : p ∈ chain.tail) : ∃ e, takenAt p = some e := by
  obtain ⟨w, hway⟩ := hchain.trail weight hp
  obtain ⟨e, -, he, -⟩ := h.le_of_trail hway
  exact ⟨e, he⟩

/-- A chain goes step by step, from the start through points that may be entered. -/
theorem chain_points (h : Correct r.next weight r.roots labels takenAt)
    (hchain : Traces labels.parents s chain) :
    (chain.map (·.point)).head? = some s.point ∧
      (chain.map (·.point)).getLast? = some r.start ∧
      (chain.map (·.point)).IsChain (fun b a => ∃ d, b = a.moved d) ∧
      ∀ t ∈ chain, t.point ≠ r.start → r.Open t.point := by
  induction hchain with
  | @root s hs =>
      have hstart : s.point = r.start := h.rooted s hs
      refine ⟨rfl, congrArg some hstart, List.isChain_singleton _, fun t ht hne => ?_⟩
      exact absurd (List.mem_singleton.mp ht ▸ hstart) hne
  | @step s p rest hp hrest ih =>
      obtain ⟨hhead, hlast, hsteps, hopen⟩ := ih
      obtain ⟨e, -, hmem, -⟩ := h.hangs s p hp
      obtain ⟨hpoint, hs⟩ := Request.mem_next.mp hmem
      refine ⟨rfl, ?_, ?_, fun t ht hne => ?_⟩
      · rw [List.map_cons, List.getLast?_cons, hlast]
        rfl
      · rw [List.map_cons, List.isChain_cons]
        refine ⟨fun a ha => ?_, hsteps⟩
        rw [hhead, Option.mem_some_iff] at ha
        exact ⟨s.direction, ha ▸ hpoint⟩
      · rcases List.mem_cons.mp ht with rfl | ht
        · exact hs
        · exact hopen t ht hne

/-- **The chain of a goal is a route.** -/
theorem route_of_traces (h : Correct r.next weight r.roots labels takenAt)
    (hgoals : ∀ p e, takenAt p = some e → p.point ∉ r.goals)
    (hchain : Traces labels.parents s chain) (hgoal : s.point ∈ r.goals) :
    Route r (chain.map (·.point)).reverse := by
  obtain ⟨hhead, hlast, hsteps, hopen⟩ := chain_points h hchain
  have hearlier : ∀ q ∈ chain.tail, q.point ∉ r.goals := by
    intro q hq
    obtain ⟨e, he⟩ := taken_of_mem_tail h hchain hq
    exact hgoals q e he
  have hdistinct : (chain.map (·.point)).Nodup :=
    points_distinct h hchain fun q hq heq => hearlier q hq (heq ▸ hgoal)
  have hstarts : (chain.map (·.point)).reverse.head? = some r.start := by
    rw [List.head?_reverse, hlast]
  have hends : (chain.map (·.point)).reverse.getLast? = some s.point := by
    rw [List.getLast?_reverse, hhead]
  -- the points after the first are those of states that are not at the start
  have hentered : ∀ point ∈ (chain.map (·.point)).reverse.tail,
      ∃ t ∈ chain, t.point = point ∧ r.Open point ∧ point ≠ r.start := by
    intro point hpoint
    obtain ⟨t, ht, rfl⟩ := List.mem_map.mp (List.mem_reverse.mp (List.mem_of_mem_tail hpoint))
    have hne : t.point ≠ r.start := by
      intro heq
      have hnodup := List.nodup_reverse.mpr hdistinct
      rw [← List.cons_head?_tail hstarts, List.nodup_cons, ← heq] at hnodup
      exact hnodup.1 hpoint
    exact ⟨t, ht, rfl, hopen t ht hne, hne⟩
  refine ⟨hstarts, ⟨s.point, hgoal, hends⟩, ?_, List.nodup_reverse.mpr hdistinct, ?_, ?_⟩
  · exact List.isChain_reverse.mpr hsteps
  · intro point hpoint
    obtain ⟨-, -, -, ⟨⟨hcontent, hstatic⟩, hoccupied, -⟩, -⟩ := hentered point hpoint
    exact ⟨hcontent, hstatic, hoccupied⟩
  · intro point hpoint hmet
    obtain ⟨t, ht, rfl, ⟨-, -, htree, hpins⟩, hne⟩ := hentered point hpoint
    have hgoal' : t.point ∈ r.goals := by
      rcases hmet with hmet | hmet
      · exact htree hmet
      · exact (hpins hmet).resolve_left hne
    rw [hends]
    cases hchain with
    | root => rw [List.mem_singleton.mp ht]
    | step hp hrest =>
        rcases List.mem_cons.mp ht with rfl | ht
        · rfl
        · exact absurd hgoal' (hearlier t ht)

end Chains

theorem compact_of_nodup {points : List GridPoint} (h : points.Nodup) :
    compact points = points := by
  induction points using List.reverseRecOn with
  | nil => rfl
  | append_singleton points point ih =>
      obtain ⟨hpoints, -, hnew⟩ := List.nodup_append.mp h
      unfold compact at ih ⊢
      rw [List.foldl_append, ih hpoints, List.foldl_cons, List.foldl_nil]
      refine if_neg fun hlast => ?_
      exact hnew point (List.mem_of_getLast? hlast) point (List.mem_singleton_self _) rfl

/-! ### The loop -/

/-- Going on from a goal is excluded by the loop, and from the start if it is no goal. -/
theorem searching_relax {r : Request} {entry : Entry} {s s' : Search} (hs : r.Searching s)
    (hlabels : s'.labels = s.labels) (hstart : r.start ∉ r.goals)
    (hcost : s.labels.costs entry.state = some (cost entry.bends entry.steps))
    (hgoal : ¬ (entry.state.point ∈ r.goals ∧ entry.state.point ≠ r.start)) :
    r.Searching (Direction.order.foldl (r.relax entry) s') := by
  obtain ⟨takenAt, hcorrect, hgoals⟩ := hs
  refine ⟨takenAt.set entry.state (cost entry.bends entry.steps), ?_, fun p e he => ?_⟩
  · rw [Request.foldl_relax_labels, hlabels]
    exact hcorrect.takeUp (Request.weighted r) hcost
  · rcases Dict.set_eq_some he with ⟨rfl, -⟩ | ⟨-, hold⟩
    · intro hmem
      have hpoint : entry.state.point = r.start := by
        by_contra hne
        exact hgoal ⟨hmem, hne⟩
      exact hstart (hpoint ▸ hmem)
    · exact hgoals p e hold

/-- The loop returns when it is given more fuel than `n`, and what it returns is a route. -/
def Finds (r : Request) (n : Nat) (s : Search) : Prop :=
  ∃ result enough, (∀ room ≥ enough, ∀ fuel, n < fuel → loop r room fuel s = some result) ∧
    ∀ path, result = some path → Route r path

section Rounds

variable {r : Request} {n : Nat} {s s' : Search} {entry : Entry} {queue : List Entry}

theorem Finds.round (h : Finds r n s')
    (hround : ∀ room fuel, loop r room (fuel + 1) s = loop r room fuel s') :
    Finds r (n + 1) s := by
  obtain ⟨result, enough, hreturns, hroute⟩ := h
  refine ⟨result, enough, fun room hroom fuel hfuel => ?_, hroute⟩
  obtain ⟨k, rfl⟩ := Nat.exists_eq_succ_of_ne_zero (Nat.ne_of_gt (Nat.zero_lt_of_lt hfuel))
  rw [hround]
  exact hreturns room hroom k (Nat.lt_of_succ_lt_succ hfuel)

theorem finds_of_last (enough : Nat) (result : Option (List GridPoint))
    (hround : ∀ room ≥ enough, ∀ fuel, loop r room (fuel + 1) s = some result)
    (hroute : ∀ path, result = some path → Route r path) : Finds r n s := by
  refine ⟨result, enough, fun room hroom fuel hfuel => ?_, hroute⟩
  obtain ⟨k, rfl⟩ := Nat.exists_eq_succ_of_ne_zero (Nat.ne_of_gt (Nat.zero_lt_of_lt hfuel))
  exact hround room hroom k

theorem finds_of_empty (hqueue : s.queue = []) : Finds r n s := by
  refine finds_of_last 0 none (fun room _ fuel => ?_) ?_
  · unfold loop
    rw [hqueue]
  · intro path h
    cases h

/-- An entry whose state has been improved since is dropped. -/
theorem loop_stale (hqueue : s.queue = entry :: queue)
    (hcost : s.labels.costs entry.state ≠ some (cost entry.bends entry.steps))
    (room fuel : Nat) : loop r room (fuel + 1) s = loop r room fuel { s with queue := queue } := by
  rw [loop, hqueue]
  dsimp only
  rw [if_pos hcost]

theorem finds_of_goal (hs : r.Searching s) (hqueue : s.queue = entry :: queue)
    (hcost : s.labels.costs entry.state = some (cost entry.bends entry.steps))
    (hgoal : entry.state.point ∈ r.goals ∧ entry.state.point ≠ r.start) : Finds r n s := by
  obtain ⟨takenAt, hcorrect, hgoals⟩ := hs
  obtain ⟨chain, hchain⟩ := hcorrect.exists_traces (Request.weighted r) hcost
  have hroute := route_of_traces hcorrect hgoals hchain hgoal.1
  refine finds_of_last chain.length (some (chain.map (·.point)).reverse)
    (fun room hroom fuel => ?_) fun path hpath => ?_
  · rw [loop, hqueue]
    dsimp only
    rw [if_neg (not_not.mpr hcost), if_pos hgoal]
    unfold reconstruct
    rw [hchain.traceback hroom, Option.map_some, Option.map_some,
      compact_of_nodup hroute.distinct]
  · rw [← Option.some.inj hpath]
    exact hroute

/-- An entry beyond the limits is not gone on from. -/
theorem loop_capped (hqueue : s.queue = entry :: queue)
    (hcost : s.labels.costs entry.state = some (cost entry.bends entry.steps))
    (hgoal : ¬ (entry.state.point ∈ r.goals ∧ entry.state.point ≠ r.start))
    (hcap : maxExpansions < s.expansions + 1 ∨ maxRouteSteps ≤ entry.steps) (room fuel : Nat) :
    loop r room (fuel + 1) s =
      loop r room fuel { s with queue := queue, expansions := s.expansions + 1 } := by
  rw [loop, hqueue]
  dsimp only
  rw [if_neg (not_not.mpr hcost), if_neg hgoal, if_pos hcap]

theorem loop_expands (hqueue : s.queue = entry :: queue)
    (hcost : s.labels.costs entry.state = some (cost entry.bends entry.steps))
    (hgoal : ¬ (entry.state.point ∈ r.goals ∧ entry.state.point ≠ r.start))
    (hcap : ¬ (maxExpansions < s.expansions + 1 ∨ maxRouteSteps ≤ entry.steps)) (room fuel : Nat) :
    loop r room (fuel + 1) s = loop r room fuel (Direction.order.foldl (r.relax entry)
      { s with queue := queue, expansions := s.expansions + 1 }) := by
  rw [loop, hqueue]
  dsimp only
  rw [if_neg (not_not.mpr hcost), if_neg hgoal, if_neg hcap]

end Rounds

/-- **The loop returns.**  Every round takes an entry off the queue, and entries are added only
while expansions are left. -/
theorem loop_finds {r : Request} (hstart : r.start ∉ r.goals) {n : Nat} {s : Search}
    (hs : r.Searching s) (hn : s.queue.length + 4 * (maxExpansions - s.expansions) ≤ n) :
    Finds r n s := by
  induction n generalizing s with
  | zero => exact finds_of_empty (List.eq_nil_of_length_eq_zero (by omega))
  | succ n ih =>
      cases hqueue : s.queue with
      | nil => exact finds_of_empty hqueue
      | cons entry queue =>
          rw [hqueue, List.length_cons] at hn
          by_cases hcost : s.labels.costs entry.state = some (cost entry.bends entry.steps)
          · by_cases hgoal : entry.state.point ∈ r.goals ∧ entry.state.point ≠ r.start
            · exact finds_of_goal hs hqueue hcost hgoal
            · by_cases hcap : maxExpansions < s.expansions + 1 ∨ maxRouteSteps ≤ entry.steps
              · refine Finds.round ?_ (loop_capped hqueue hcost hgoal hcap)
                refine ih hs ?_
                dsimp only
                omega
              · refine Finds.round ?_ (loop_expands hqueue hcost hgoal hcap)
                obtain ⟨hlength, hexpansions⟩ := Request.foldl_relax_queue r entry
                  { s with queue := queue, expansions := s.expansions + 1 }
                refine ih (searching_relax hs rfl hstart hcost hgoal) ?_
                dsimp only at hlength hexpansions
                rw [hexpansions]
                omega
          · refine Finds.round ?_ (loop_stale hqueue hcost)
            refine ih hs ?_
            dsimp only
            omega

theorem Route.length {r : Request} {path : List GridPoint} (h : Route r path)
    (hstart : r.start ∉ r.goals) : 2 ≤ path.length := by
  obtain ⟨goal, hgoal, hlast⟩ := h.ends
  have hhead := h.starts
  match path with
  | [] => cases hhead
  | [point] =>
      rw [List.head?_cons, Option.some.injEq] at hhead
      rw [List.getLast?_singleton, Option.some.injEq] at hlast
      exact absurd (hhead ▸ hlast ▸ hgoal) hstart
  | first :: second :: rest => exact Nat.le_add_left 2 rest.length

/-- **The search returns, and what it returns is nothing or a route.** -/
theorem astar_returns (r : Request) :
    ∃ result, (∃ enough, ∀ fuel ≥ enough, astar fuel r = some result) ∧
      (∀ path, result = some path → Route r path) ∧
      (r.start ∈ r.goals → result = some [r.start]) := by
  by_cases hempty : r.goals = ∅
  · refine ⟨none, ⟨0, fun fuel _ => if_pos hempty⟩, fun path h => (by cases h), fun hmem => ?_⟩
    rw [hempty] at hmem
    exact absurd hmem (Finset.notMem_empty _)
  · by_cases hstart : r.start ∈ r.goals
    · refine ⟨some [r.start], ⟨0, fun fuel _ => ?_⟩, fun path hpath => ?_, fun _ => rfl⟩
      · unfold astar
        rw [if_neg hempty, if_pos hstart]
      · rw [← Option.some.inj hpath]
        exact ⟨rfl, ⟨_, hstart, rfl⟩, List.isChain_singleton _, List.nodup_singleton _,
          fun _ h => absurd h List.not_mem_nil, fun _ h => absurd h List.not_mem_nil⟩
    · have hfinds : ∃ n, Finds r n r.opening :=
        ⟨_, loop_finds hstart (Request.opening_searching r) (le_refl _)⟩
      obtain ⟨n, result, enough, hreturns, hroute⟩ := hfinds
      refine ⟨result, ⟨max enough (n + 1), fun fuel hfuel => ?_⟩, hroute, fun h => absurd h hstart⟩
      unfold astar
      rw [if_neg hempty, if_neg hstart]
      exact hreturns fuel ((le_max_left _ _).trans hfuel) fuel
        (Nat.lt_of_succ_le ((le_max_right _ _).trans hfuel))

end Evleda.HumanSchematic
