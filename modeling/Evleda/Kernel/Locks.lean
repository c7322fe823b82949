/-
Locked objects.

Eight kinds of record carry a lock: placements, pads, holes, tracks, vias, zones,
schematic wires and junctions.  No command clears a lock, and no command takes a
locked record away: most commands only add, placing a component again replaces
its placement, removing one removes its placement, pads and holes, and these two
look at the locks first.

A command looks at one placement only, the first it finds for the component.
That is enough because a component never has two, which every command keeps.
-/
import Evleda.Kernel.Batch
import Evleda.Kernel.Validity

namespace Evleda.Kernel

open Outcome

section Locks

variable [UnicodeData] [Hashing]

/-! ### What is kept -/

/-- Every locked element of the first list is in the second. -/
def LockedIn {α : Type} {construct : α → Except Failure α} (locked : α → Bool)
    (items items' : List (Checked construct)) : Prop :=
  ∀ item ∈ items, locked item.val = true → item ∈ items'

/-- Every locked object of the first graph is in the second, as it was. -/
structure KeepsLocked (g g' : DesignGraph) : Prop where
  placements : LockedIn FootprintPlacement.locked g.placements g'.placements
  pads : LockedIn FootprintPad.locked g.pads g'.pads
  holes : LockedIn FootprintHole.locked g.holes g'.holes
  tracks : LockedIn Track.locked g.tracks g'.tracks
  vias : LockedIn Via.locked g.vias g'.vias
  zones : LockedIn CopperZone.locked g.zones g'.zones
  schematicWires : LockedIn SchematicWire.locked g.schematicWires g'.schematicWires
  schematicJunctions :
    LockedIn SchematicJunction.locked g.schematicJunctions g'.schematicJunctions

section Items

omit [UnicodeData] [Hashing]

variable {α : Type} {construct : α → Except Failure α} {locked : α → Bool}
  {items items' items'' : List (Checked construct)}

theorem LockedIn.subset (h : items ⊆ items') : LockedIn locked items items' :=
  fun _ hitem _ => h hitem

theorem LockedIn.trans (h : LockedIn locked items items') (h' : LockedIn locked items' items'') :
    LockedIn locked items items'' :=
  fun item hitem hlocked => h' item (h item hitem hlocked) hlocked

theorem LockedIn.filter {p : Checked construct → Bool}
    (h : ∀ item ∈ items, p item = false → locked item.val = false) :
    LockedIn locked items (items.filter p) := by
  intro item hitem hlocked
  refine List.mem_filter.mpr ⟨hitem, ?_⟩
  by_contra hdropped
  rw [Bool.not_eq_true] at hdropped
  rw [h item hitem hdropped] at hlocked
  cases hlocked

/-- Normalizing the second list keeps what is normal in the first. -/
theorem LockedIn.normalizedItems {hstable : Stable construct} {normalize : α → α}
    {key : α → String} (h : LockedIn locked items items')
    (hnormal : ∀ item ∈ items, normalize item.val = item.val)
    (hitems : normalizedItems hstable normalize key items' = .ok items'') :
    LockedIn locked items items'' := by
  obtain ⟨rebuilt, hrebuilt, rfl⟩ := normalizedItems_ok.mp hitems
  intro item hitem hlocked
  have hself : Checked.replace hstable normalize item = .ok item :=
    Checked.replace_self (hnormal item hitem)
  obtain ⟨item', hitem', hreplaced⟩ := mapM_image hrebuilt (h item hitem hlocked)
  rw [hself] at hreplaced
  cases hreplaced
  exact mem_sortBy.mpr hitem'

end Items

theorem KeepsLocked.refl (g : DesignGraph) : KeepsLocked g g :=
  ⟨.subset (List.Subset.refl _), .subset (List.Subset.refl _), .subset (List.Subset.refl _),
    .subset (List.Subset.refl _), .subset (List.Subset.refl _), .subset (List.Subset.refl _),
    .subset (List.Subset.refl _), .subset (List.Subset.refl _)⟩

theorem KeepsLocked.trans {g g' g'' : DesignGraph} (h : KeepsLocked g g')
    (h' : KeepsLocked g' g'') : KeepsLocked g g'' :=
  ⟨h.placements.trans h'.placements, h.pads.trans h'.pads, h.holes.trans h'.holes,
    h.tracks.trans h'.tracks, h.vias.trans h'.vias, h.zones.trans h'.zones,
    h.schematicWires.trans h'.schematicWires, h.schematicJunctions.trans h'.schematicJunctions⟩

theorem KeepsLocked.normalized {g g' g'' : DesignGraph} (hnormal : Normal g)
    (h : KeepsLocked g g') (hnormalized : g'.normalized = .ok g'') : KeepsLocked g g'' := by
  unfold DesignGraph.normalized at hnormalized
  simp only [bind_ok, pure_ok] at hnormalized
  obtain ⟨components, -, nets, -, tracks, htracks, pads, hpads, holes, hholes, vias, hvias,
    zones, hzones, wires, hwires, rfl⟩ := hnormalized
  refine ⟨?_, h.pads.normalizedItems hnormal.pads.normal hpads,
    h.holes.normalizedItems hnormal.holes.normal hholes,
    h.tracks.normalizedItems hnormal.tracks.normal htracks,
    h.vias.normalizedItems hnormal.vias.normal hvias,
    h.zones.normalizedItems hnormal.zones.normal hzones,
    h.schematicWires.normalizedItems hnormal.schematicWires.normal hwires, ?_⟩
  · intro item hitem hlocked
    exact mem_sortBy.mpr (h.placements item hitem hlocked)
  · intro item hitem hlocked
    exact mem_sortBy.mpr (h.schematicJunctions item hitem hlocked)

/-! ### What a command can do to records that can be locked -/

/-- The command leaves the placements alone and takes no other record away. -/
structure Grows (g g' : DesignGraph) : Prop where
  placements : g'.placements = g.placements
  pads : g.pads ⊆ g'.pads
  holes : g.holes ⊆ g'.holes
  tracks : g.tracks ⊆ g'.tracks
  vias : g.vias ⊆ g'.vias
  zones : g.zones ⊆ g'.zones
  schematicWires : g.schematicWires ⊆ g'.schematicWires
  schematicJunctions : g.schematicJunctions ⊆ g'.schematicJunctions

/-- The placement a command finds for a component is not locked. -/
def Movable (g : DesignGraph) (componentId : String) : Prop :=
  ∀ item ∈ g.placements.find? (fun item => item.val.componentId == componentId),
    item.val.locked = false

/-- The ways in which a command changes the records that can be locked. -/
inductive Edits (g : DesignGraph) : DesignGraph → Prop
  | grows {g' : DesignGraph} (h : Grows g g') : Edits g g'
  | places {componentId : String} {placement : Checked FootprintPlacement.postInit}
      (hmovable : Movable g componentId) (hid : placement.val.componentId = componentId) :
      Edits g { g with
        placements := g.placements.filter (fun item => item.val.componentId ≠ componentId) ++
          [placement] }
  | removes {componentId : String} (hmovable : Movable g componentId)
      (hpads : ∀ item ∈ g.pads, item.val.componentId = componentId → item.val.locked = false)
      (hholes : ∀ item ∈ g.holes, item.val.componentId = componentId → item.val.locked = false) :
      Edits g { g with
        components := g.components.filter (fun item => item.val.componentId ≠ componentId)
        placements := g.placements.filter (fun item => item.val.componentId ≠ componentId)
        pads := g.pads.filter (fun item => item.val.componentId ≠ componentId)
        holes := g.holes.filter (fun item => item.val.componentId ≠ componentId) }

omit [UnicodeData] [Hashing] in
theorem addNew_subset {α : Type} {construct : α → Except Failure α} {key : α → String}
    {subject : String} {items items' : List (Checked construct)} {item : Checked construct}
    (h : addNew key subject items item = .ok items') : items ⊆ items' := by
  unfold addNew at h
  simp only [bind_ok, exists_unit, pure_ok] at h
  obtain ⟨-, rfl⟩ := h
  exact List.subset_append_left ..

variable {g g' : DesignGraph}

/-- A command that only adds one record makes its collection longer. -/
theorem added_edits {α : Type} {construct : α → Except Failure α} {key : α → String}
    {subject : String} {items : List (Checked construct)}
    {record : Except Failure (Checked construct)}
    {put : List (Checked construct) → DesignGraph}
    (h : (do let item ← record; let items ← addNew key subject items item; pure (put items)) =
      .ok g') (hgrows : ∀ items', items ⊆ items' → Grows g (put items')) : Edits g g' := by
  simp only [bind_ok, pure_ok] at h
  obtain ⟨_, -, _, hadd, rfl⟩ := h
  exact .grows (hgrows _ (addNew_subset hadd))

variable {payload : Payload}

theorem applyFootprintPlace_edits
    (h : applyFootprintPlace g payload = .ok g') : Edits g g' := by
  unfold applyFootprintPlace at h
  simp only [bind_ok, exists_unit, require_ok, pure_ok] at h
  obtain ⟨-, componentId, -, -, hmovable, placement, hplacement, rfl⟩ := h
  refine .places hmovable ?_
  unfold footprintPlacement at hplacement
  simp only [bind_ok] at hplacement
  obtain ⟨_, -, _, -, _, -, _, -, hmake⟩ := hplacement
  rw [(checking_ok.mp (Checked.make_ok.mp hmake)).2]

theorem applyComponentRemove_edits
    (h : applyComponentRemove g payload = .ok g') : Edits g g' := by
  unfold applyComponentRemove at h
  simp only [bind_ok, exists_unit, require_ok, pure_ok] at h
  obtain ⟨-, componentId, -, -, -, hmovable, hgeometry, rfl⟩ := h
  exact .removes hmovable hgeometry.1 hgeometry.2

theorem applyFootprintPadGroupAdd_pads
    (h : applyFootprintPadGroupAdd g payload = .ok g') :
    ∃ pads, g' = { g with pads := g.pads ++ pads } := by
  unfold applyFootprintPadGroupAdd at h
  simp only [bind_ok, exists_unit] at h
  obtain ⟨-, groupId, -, h⟩ := h
  split at h
  · simp only [bind_ok, exists_unit, pure_ok] at h
    obtain ⟨-, pads, -, -, -, rfl⟩ := h
    exact ⟨pads, rfl⟩
  · cases h

/-- **Every command makes one of the listed edits.** -/
theorem apply_edits {kind : CommandKind}
    (h : apply g kind payload = .ok g') : Edits g g' := by
  have hrefl : Grows g g := by constructor <;> simp
  cases kind with
  | componentRemove => exact applyComponentRemove_edits h
  | footprintPlace => exact applyFootprintPlace_edits h
  | componentAdd =>
      change applyComponentAdd g payload = .ok g' at h
      unfold applyComponentAdd at h
      simp only [bind_ok, exists_unit, pure_ok] at h
      obtain ⟨_, -, -, -, rfl⟩ := h
      exact .grows { hrefl with }
  | netCreate =>
      change applyNetCreate g payload = .ok g' at h
      unfold applyNetCreate at h
      simp only [bind_ok, exists_unit, pure_ok] at h
      obtain ⟨-, _, -, _, -, -, -, _, -, rfl⟩ := h
      exact .grows { hrefl with }
  | netConnect =>
      change applyNetConnect g payload = .ok g' at h
      unfold applyNetConnect at h
      simp only [bind_ok, exists_unit, pure_ok] at h
      obtain ⟨-, _, -, _, -, -, _, -, -, rfl⟩ := h
      exact .grows { hrefl with }
  | footprintPadAdd =>
      change applyFootprintPadAdd g payload = .ok g' at h
      unfold applyFootprintPadAdd at h
      simp only [bind_ok, exists_unit, pure_ok] at h
      obtain ⟨_, -, -, _, hadd, rfl⟩ := h
      exact .grows { hrefl with pads := addNew_subset hadd }
  | footprintPadGroupAdd =>
      obtain ⟨pads, rfl⟩ := applyFootprintPadGroupAdd_pads h
      exact .grows { hrefl with pads := List.subset_append_left .. }
  | footprintHoleAdd => exact added_edits h fun _ hmore => { hrefl with holes := hmore }
  | trackAdd => exact added_edits h fun _ hmore => { hrefl with tracks := hmore }
  | viaAdd => exact added_edits h fun _ hmore => { hrefl with vias := hmore }
  | zoneAdd => exact added_edits h fun _ hmore => { hrefl with zones := hmore }
  | schematicWireAdd => exact added_edits h fun _ hmore => { hrefl with schematicWires := hmore }
  | schematicJunctionAdd =>
      exact added_edits h fun _ hmore => { hrefl with schematicJunctions := hmore }
  | boardSetOutline =>
      change applyBoardSetOutline g payload = .ok g' at h
      unfold applyBoardSetOutline at h
      simp only [bind_ok, exists_unit, pure_ok] at h
      obtain ⟨-, _, -, rfl⟩ := h
      exact .grows { hrefl with }

/-! ### One command -/

theorem Movable.unlocked {g : DesignGraph} {componentId : String} (h : Movable g componentId)
    (honce : g.placementIds.Nodup) {item : Checked FootprintPlacement.postInit}
    (hitem : item ∈ g.placements) (hid : item.val.componentId = componentId) :
    item.val.locked = false :=
  h item (Option.mem_def.mpr (find?_of_nodup honce hitem hid))

theorem Movable.lockedIn {g : DesignGraph} {componentId : String} (h : Movable g componentId)
    (honce : g.placementIds.Nodup) :
    LockedIn FootprintPlacement.locked g.placements
      (g.placements.filter (fun item => item.val.componentId ≠ componentId)) := by
  refine .filter fun item hitem hdropped => h.unlocked honce hitem ?_
  simpa using hdropped

theorem Edits.keepsLocked (h : Edits g g') (honce : g.placementIds.Nodup) :
    KeepsLocked g g' := by
  cases h with
  | grows h =>
      refine ⟨.subset ?_, .subset h.pads, .subset h.holes, .subset h.tracks, .subset h.vias,
        .subset h.zones, .subset h.schematicWires, .subset h.schematicJunctions⟩
      rw [h.placements]
      exact List.Subset.refl _
  | places hmovable _ =>
      refine { KeepsLocked.refl g with placements := ?_ }
      exact (hmovable.lockedIn honce).trans (.subset (List.subset_append_left ..))
  | removes hmovable hpads hholes =>
      refine { KeepsLocked.refl g with
        placements := hmovable.lockedIn honce
        pads := .filter fun item hitem hdropped => hpads item hitem ?_
        holes := .filter fun item hitem hdropped => hholes item hitem ?_ }
      · simpa using hdropped
      · simpa using hdropped

/-- No command gives a component a second placement. -/
theorem Edits.placedOnce (h : Edits g g') (honce : g.placementIds.Nodup) :
    g'.placementIds.Nodup := by
  have hfiltered : ∀ componentId : String, ((g.placements.filter
      (fun item => item.val.componentId ≠ componentId)).map (·.val.componentId)).Nodup := by
    intro componentId
    exact honce.sublist (List.filter_sublist.map _)
  cases h with
  | grows h =>
      unfold DesignGraph.placementIds
      rw [h.placements]
      exact honce
  | removes _ _ _ => exact hfiltered _
  | @places componentId placement hmovable hid =>
      unfold DesignGraph.placementIds
      rw [List.map_append, List.nodup_append]
      refine ⟨hfiltered componentId, List.nodup_singleton _, ?_⟩
      intro other hother other' hother' hsame
      rw [List.map_singleton, List.mem_singleton] at hother'
      obtain ⟨item, hitem, rfl⟩ := List.mem_map.mp hother
      have hne := (List.mem_filter.mp hitem).2
      rw [hsame, hother', hid] at hne
      simp at hne

theorem normalized_placedOnce (h : g.normalized = .ok g')
    (honce : g.placementIds.Nodup) : g'.placementIds.Nodup := by
  unfold DesignGraph.normalized at h
  simp only [bind_ok, pure_ok] at h
  obtain ⟨_, -, _, -, _, -, _, -, _, -, _, -, _, -, _, -, rfl⟩ := h
  exact ((sortBy_perm g.placements).map _).nodup_iff.mpr honce

theorem applyCommand_keepsLocked {base g g' : DesignGraph} {command : DesignCommand}
    (hbase : Normal base) (hkept : KeepsLocked base g) (honce : g.placementIds.Nodup)
    (h : applyCommand g command = .ok g') : KeepsLocked base g' ∧ g'.placementIds.Nodup := by
  unfold applyCommand at h
  rw [bind_ok] at h
  obtain ⟨applied, happlied, hnormalized⟩ := h
  have hedits := apply_edits happlied
  constructor
  · exact (hkept.trans (hedits.keepsLocked honce)).normalized hbase hnormalized
  · exact normalized_placedOnce hnormalized (hedits.placedOnce honce)

/-- **What a normal graph has locked comes through every list of commands.** -/
theorem replayCommands_keepsLocked {base g : DesignGraph} (hbase : Normal base)
    (honce : base.placementIds.Nodup) {commands : List Command}
    (h : replayCommands base commands = .ok g) : KeepsLocked base g := by
  -- the induction is on the end of the list, so that the base stays where it is
  have hboth : KeepsLocked base g ∧ g.placementIds.Nodup := by
    induction commands using List.reverseRecOn generalizing g with
    | nil =>
        have hnil : base = g := Except.ok.inj h
        rw [← hnil]
        exact ⟨KeepsLocked.refl base, honce⟩
    | append_singleton commands command ih =>
        obtain ⟨middle, hmiddle, hlast⟩ := foldlM_append_ok.mp h
        obtain ⟨last, hstep, hnil⟩ := foldlM_cons_ok.mp hlast
        obtain rfl : last = g := Except.ok.inj hnil
        obtain ⟨hkept, honceMiddle⟩ := ih hmiddle
        exact applyCommand_keepsLocked hbase hkept honceMiddle hstep
  exact hboth.1

/-! ### Committed transactions and their revisions -/

/-- A committed transaction's revision holds the graph it staged. -/
def Recorded (k : DesignKernel) : Prop :=
  ∀ transactionId t revisionHash, k.transactions transactionId = some t →
    t.val.committedRevisionHash = some revisionHash →
    ∃ r, k.revisions revisionHash = some r ∧ r.val.graph = t.val.stagedGraph

/-- Assigning a transaction that is not committed leaves nothing to check for it. -/
theorem Recorded.setTransaction {k k' : DesignKernel} {transactionId : String} {t : Transaction}
    (h : Recorded k) (hrevisions : k'.revisions = k.revisions)
    (htransactions : k'.transactions = k.transactions.set transactionId t)
    (hnot : t.val.committedRevisionHash = none ∨ k.transactions transactionId = some t) :
    Recorded k' := by
  intro other t' revisionHash ht' hhash
  rw [htransactions] at ht'
  rw [hrevisions]
  obtain ⟨rfl, rfl⟩ | ⟨-, hother⟩ := Dict.set_eq_some ht'
  · rcases hnot with hnone | hsame
    · rw [hnone] at hhash
      cases hhash
    · exact h _ _ _ hsame hhash
  · exact h other t' revisionHash hother hhash

theorem not_committed_hash (t : Transaction) (h : t.val.state ≠ .committed) :
    t.val.committedRevisionHash = none := by
  have hchecks := transaction_checks t
  unfold DesignTransaction.checks at hchecks
  simp only [bind_ok, exists_unit, require_ok] at hchecks
  obtain ⟨-, -, -, -, -, -, -, -, -, -, -, -, hnone⟩ := hchecks
  exact hnone h

theorem extended_opened {t t' : Transaction} (h : Relation.ReflTransGen Extended t t') :
    t' = t ∨ t'.val.state = .opened := by
  induction h with
  | refl => exact Or.inl rfl
  | tail _ hstep _ =>
      obtain ⟨message, command, hextend⟩ := hstep
      obtain ⟨_, _, hopened, -, -, -, hval⟩ := extend_ok hextend
      refine Or.inr ?_
      rw [hval]
      exact hopened

theorem Recorded.moves (hfree : Hashing.CollisionFree) {root : Revision} {k k' : DesignKernel}
    (hconsistent : Consistent root k) (h : Recorded k) (hmoves : Moves k k') : Recorded k' := by
  cases hmoves with
  | stays => exact h
  | @opens transactionId baseRevision t hnew hopen =>
      obtain ⟨_, _, -, -, -, hval⟩ := openTransaction_ok hopen
      exact h.setTransaction rfl rfl (Or.inl (by rw [hval]))
  | @«extends» transactionId t₀ t _ _ ht₀ hextended =>
      refine h.setTransaction rfl rfl ?_
      rcases extended_opened hextended with rfl | hopened
      · exact Or.inr ht₀
      · exact Or.inl (not_committed_hash t (by rw [hopened]; decide))
  | @verifies transactionId reportHash gatePassed t₀ t ht₀ hverified =>
      refine h.setTransaction rfl rfl (Or.inl (not_committed_hash t ?_))
      unfold verifiedTransaction at hverified
      simp only [bind_ok, exists_unit, require_ok] at hverified
      rw [replace_ok hverified.2]
      cases gatePassed <;> simp
  | @rollsBack transactionId t₀ t ht₀ hstate hreplace =>
      refine h.setTransaction rfl rfl (Or.inl (not_committed_hash t ?_))
      rw [replace_ok hreplace]
      simp [rolledBack]
  | @commits transactionId t₀ t verified r consumed ht₀ hrevision hreplace =>
      obtain ⟨line, hline, hsound⟩ := hconsistent.revisions
      have hnew := committedRevision_fresh hfree hline hsound hrevision
      obtain ⟨_, graph, _, -, -, -, -, -, hgraph, -, hval⟩ := committedRevision_ok hrevision
      have hnormal := (hconsistent.transactions _ _ ht₀).2.normal
      obtain rfl : t₀.val.stagedGraph = graph := Except.ok.inj (hnormal.symm.trans hgraph)
      intro other t' revisionHash ht' hhash
      obtain ⟨rfl, rfl⟩ | ⟨-, hother⟩ := Dict.set_eq_some ht'
      · rw [replace_ok hreplace] at hhash ⊢
        obtain rfl : r.val.revisionHash = revisionHash := Option.some.inj hhash
        refine ⟨r, Dict.set_self .., ?_⟩
        rw [hval]
        rfl
      · obtain ⟨r', hr', hsame⟩ := h other t' revisionHash hother hhash
        refine ⟨r', ?_, hsame⟩
        show k.revisions.set r.val.revisionHash r revisionHash = some r'
        rw [Dict.set_of_ne _ _ ?_, hr']
        rintro rfl
        rw [hnew] at hr'
        cases hr'

/-! ### Every run -/

theorem Consistent.keepsLocked {root : Revision} {k : DesignKernel} (h : Consistent root k)
    {transactionId : String} {t : Transaction} (ht : k.transactions transactionId = some t) :
    ∃ base, k.revisions t.val.baseRevision = some base ∧
      KeepsLocked base.val.graph t.val.stagedGraph := by
  obtain ⟨base, hbase, hreplay⟩ := (h.transactions _ _ ht).2.replayed
  obtain ⟨line, hline, hsound⟩ := h.revisions
  have hbaseSound := hsound base ((hline.stored _ _).mp hbase).1
  have honce : base.val.graph.placementIds.Nodup :=
    (validateGraph_iff.mp hbaseSound.valid).identifiers
      ("placement component IDs", base.val.graph.placementIds) (by simp [DesignGraph.identifiers])
  exact ⟨base, hbase,
    replayCommands_keepsLocked (normal_of_normalized hbaseSound.normal) honce hreplay⟩

theorem commit_graph {root : Revision} {k k' : DesignKernel} (h : Consistent root k)
    (hrecorded : Recorded k) {verifier : Option CommitVerifier} {transactionId : String}
    {authorization : CommitAuthorization} {r : Revision}
    (hcommit : (commit verifier transactionId authorization).run k = (.ok r, k')) :
    ∃ t, k.transactions transactionId = some t ∧ r.val.graph = t.val.stagedGraph := by
  obtain ⟨t, v, verified, ht, -, -, ⟨-, hretried, -⟩ | ⟨-, hrevision, -⟩⟩ :=
    commit_returns.mp hcommit
  · unfold retriedCommit at hretried
    simp only [bind_ok, exists_unit, require_ok] at hretried
    obtain ⟨-, -, revisionHash, hhash, hget⟩ := hretried
    obtain ⟨r', hr', hsame⟩ := hrecorded _ _ _ ht (found_ok.mp hhash)
    obtain rfl : r' = r := Option.some.inj (hr'.symm.trans (found_ok.mp hget))
    exact ⟨t, ht, hsame⟩
  · obtain ⟨_, graph, _, -, -, -, -, -, hgraph, -, hval⟩ := committedRevision_ok hrevision
    have hnormal := (h.transactions _ _ ht).2.normal
    obtain rfl : t.val.stagedGraph = graph := Except.ok.inj (hnormal.symm.trans hgraph)
    exact ⟨t, ht, by rw [hval]⟩

/-- **What is locked in the base revision stays as it is.**  After every run from a fresh kernel,
every transaction's staged graph holds each locked object of its base revision unchanged, and so
does every revision that a commit of the transaction returns. -/
theorem locked_objects_kept (hfree : Hashing.CollisionFree) {g : DesignGraph} {k : DesignKernel}
    (h : DesignKernel.init g = .ok k) (operations : List Operation) (transactionId : String)
    (t : Transaction) (ht : (replay perform k operations).transactions transactionId = some t) :
    ∃ base, (replay perform k operations).revisions t.val.baseRevision = some base ∧
      KeepsLocked base.val.graph t.val.stagedGraph ∧
      ∀ verifier authorization r k',
        (commit verifier transactionId authorization).run (replay perform k operations) =
          (.ok r, k') →
        KeepsLocked base.val.graph r.val.graph := by
  obtain ⟨root, -, hconsistent⟩ := init_consistent h
  have hstart : Recorded k := by
    unfold DesignKernel.init at h
    simp only [bind_ok, exists_unit, pure_ok] at h
    obtain ⟨_, -, -, _, -, _, -, rfl⟩ := h
    intro _ _ _ hnone
    cases hnone
  obtain ⟨hend, hrecorded⟩ : Consistent root (replay perform k operations) ∧
      Recorded (replay perform k operations) := by
    refine @Replay.invariant _ _ _ k (fun k => Consistent root k ∧ Recorded k)
      ⟨hconsistent, hstart⟩ ?_ operations
    intro k' op hk'
    have hmoves := perform_moves k' op
    exact ⟨hk'.1.moves hfree hmoves, hk'.2.moves hfree hk'.1 hmoves⟩
  obtain ⟨base, hbase, hkept⟩ := hend.keepsLocked ht
  refine ⟨base, hbase, hkept, ?_⟩
  intro verifier authorization r k' hcommit
  obtain ⟨t', ht', hgraph⟩ := commit_graph hend hrecorded hcommit
  obtain rfl : t = t' := Option.some.inj (ht.symm.trans ht')
  rw [hgraph]
  exact hkept

end Locks

/-! ### A board with a locked track -/

/-- A net that connects nothing, as the canonical encoder sees it, and the board with some. -/
def plainNetJson (netId name : String) : Json :=
  Json.object [("net_id", .str netId), ("name", .str name), ("members", .arr [])]

def lockedGraphJson (nets : List Json) : Json :=
  Json.object [
    ("schema_version", .int 1), ("project_id", .str "demo"),
    ("layers", textsJson ["B.Cu", "F.Cu"]), ("board_outline", .arr []), ("components", .arr []),
    ("nets", .arr nets), ("placements", .arr []),
    ("tracks", .arr [Json.object [("track_id", .str "w1"), ("net_id", .str "n1"),
      ("layer", .str "F.Cu"), ("start", Json.object [("x", .int 0), ("y", .int 0)]),
      ("end", Json.object [("x", .int 1000), ("y", .int 0)]), ("width_nm", .int 100),
      ("locked", .bool true)]]),
    ("pads", .arr []), ("holes", .arr []), ("vias", .arr []), ("zones", .arr []),
    ("schematic_wires", .arr []), ("schematic_junctions", .arr [])]

/-- The record of the command that creates another net. -/
def supplyCommandJson : Json :=
  Json.object [
    ("command_id", .str "c2"), ("base_revision", .str (plainDigest 'b')),
    ("transaction_id", .str "t1"), ("actor", .str "designer"), ("kind", .str "net.create"),
    ("payload_json", .str (String.ofList (Json.canonical
      (.obj [("name", .str "VCC"), ("net_id", .str "n2")])).render)),
    ("idempotency_key", .str "k2")]

/-- The digests taken when a net is staged on the board. -/
def lockedEntries : List Hashing.Entry :=
  [⟨"flux-clone-design-graph-v1", lockedGraphJson [plainNetJson "n1" "GND"], plainDigest 'a'⟩,
    ⟨revisionDomain, Json.object [("parent", .null), ("sequence", .int 0),
      ("graph_hash", .str (plainDigest 'a'))], plainDigest 'b'⟩,
    ⟨"flux-clone-preview-v2", previewJson (plainDigest 'a') [], plainDigest 'c'⟩,
    ⟨"flux-clone-design-command-v1", supplyCommandJson, plainDigest 'd'⟩,
    ⟨"flux-clone-design-graph-v1", lockedGraphJson [plainNetJson "n1" "GND",
      plainNetJson "n2" "VCC"], plainDigest 'e'⟩,
    ⟨"flux-clone-preview-v2", previewJson (plainDigest 'e') [plainDigest 'd'], plainDigest 'f'⟩]

@[reducible] def lockedHashing : Hashing := Hashing.listed lockedEntries

theorem lockedHashing_collisionFree : @Hashing.CollisionFree lockedHashing := by
  have hdigests : lockedEntries.map (·.digest) =
      ['a', 'b', 'c', 'd', 'e', 'f'].map plainDigest := by
    simp only [lockedEntries, List.map_cons, List.map_nil]
  exact plainDigests_collisionFree hdigests (by decide) (by decide)

theorem lockedHashing_digest {entry : Hashing.Entry} (hmem : entry ∈ lockedEntries) :
    @stableHash lockedHashing entry.domain entry.value = entry.digest := by
  refine Hashing.listed_inDomain (by decide) ?_ hmem
  have hgraphs : ∀ net net' : Json, lockedGraphJson [net] ≠ lockedGraphJson [net, net'] := by
    intro net net' h
    have hmem := (Json.perm_of_object_eq h).mem_iff.mp
      (show ("nets", Json.arr [net]) ∈ _ by simp)
    simp at hmem
  simp [lockedEntries, revisionDomain, hgraphs, previewJson_ne (show 'a' ≠ 'e' by decide)]

section Locked

attribute [local instance] asciiData lockedHashing

def lockedTrack : Checked Track.postInit :=
  ⟨⟨"w1", "n1", "F.Cu", ⟨0, 0, inInt64_zero, inInt64_zero⟩, ⟨1000, 0, by decide, inInt64_zero⟩, 100, true⟩,
    by decide⟩

/-- A design with a locked track of the ground net. -/
def lockedGraph (nets : List (Checked Net.postInit)) : DesignGraph where
  schemaVersion := 1
  projectId := "demo"
  layers := ["B.Cu", "F.Cu"]
  boardOutline := []
  components := []
  nets := nets
  placements := []
  tracks := [lockedTrack]
  pads := []
  holes := []
  vias := []
  zones := []
  schematicWires := []
  schematicJunctions := []
  header := demo_header

theorem lockedGraph_normalized : (lockedGraph [groundNet]).normalized = .ok (lockedGraph [groundNet]) ∧
    (lockedGraph [groundNet, supplyNet]).normalized = .ok (lockedGraph [groundNet, supplyNet]) :=
  ⟨rfl, rfl⟩

theorem lockedGraph_valid : validateGraph (lockedGraph [groundNet]) = .ok () ∧
    validateGraph (lockedGraph [groundNet, supplyNet]) = .ok () := by
  decide +kernel

theorem lockedGraph_graphHash : (lockedGraph [groundNet]).graphHash = .ok (plainDigest 'a') ∧
    (lockedGraph [groundNet, supplyNet]).graphHash = .ok (plainDigest 'e') := by
  unfold DesignGraph.graphHash
  simp only [lockedGraph_normalized, lockedGraph_valid, bind_ok, exists_unit,
    pure_ok, Except.ok.injEq, exists_eq_left', true_and]
  exact ⟨@lockedHashing_digest lockedEntries[0] (List.getElem_mem _),
    @lockedHashing_digest lockedEntries[4] (List.getElem_mem _)⟩

theorem genesisHash_locked : genesisHash (plainDigest 'a') = plainDigest 'b' :=
  @lockedHashing_digest lockedEntries[1] (List.getElem_mem _)

def lockedGenesis : Revision :=
  ⟨_, checking_ok.mpr ⟨plainGenesis_checks lockedGraph_graphHash.1, rfl⟩⟩

/-- The kernel created with the board. -/
def lockedKernel : DesignKernel where
  revisions := Dict.empty.set (plainDigest 'b') lockedGenesis
  head := plainDigest 'b'

theorem init_locked : DesignKernel.init (lockedGraph [groundNet]) = .ok lockedKernel :=
  init_plain lockedGraph_normalized.1 lockedGraph_valid.1 lockedGraph_graphHash.1 genesisHash_locked
    rfl

/-- A transaction opened on the board. -/
def lockedTransaction : Transaction :=
  ⟨{ transactionId := "t1", baseRevision := plainDigest 'b', stagedGraph := lockedGraph [groundNet],
     previewDigest := plainDigest 'c' },
    checking_ok.mpr ⟨plainTransaction_checks (by decide) _ fun _ => plainDigest_isSha256 rfl _, rfl⟩⟩

def lockedOpened : DesignKernel :=
  { lockedKernel with transactions := Dict.empty.set "t1" lockedTransaction }

theorem previewDigestOf_locked : previewDigestOf { lockedTransaction.val with previewDigest := "" } =
    .ok (plainDigest 'c') := by
  unfold previewDigestOf
  rw [bind_ok]
  refine ⟨plainDigest 'a', lockedGraph_graphHash.1, pure_ok.mpr ?_⟩
  exact @lockedHashing_digest lockedEntries[2] (List.getElem_mem _)

theorem begin_locked : perform lockedKernel (.beginTransaction "t1" (plainDigest 'b')) =
    lockedOpened := by
  have hopen : openTransaction lockedKernel "t1" (plainDigest 'b') = .ok lockedTransaction :=
    openTransaction_plain (by decide) rfl (Dict.set_self Dict.empty (plainDigest 'b') lockedGenesis)
      (by rfl) previewDigestOf_locked rfl
  have hrun : (beginTransaction "t1" (plainDigest 'b')).run lockedKernel =
      (.ok lockedTransaction, lockedOpened) :=
    beginTransaction_opens (by decide) (plainDigest_isSha256 rfl _) rfl hopen
  rw [perform, hrun]

/-- The transaction with the other net staged. -/
def lockedStaging : DesignTransaction :=
  { lockedTransaction.val with
    stagedGraph := lockedGraph [groundNet, supplyNet]
    commands := [supplyCommand]
    previewDigest := plainDigest 'f' }

theorem lockedStaging_checks : lockedStaging.checks = .ok () := by
  unfold DesignTransaction.checks
  simp only [bind_ok, exists_unit, require_ok, requireWhen_ok,
    forM_ok]
  have hid : requireId "t1" "transaction ID" = .ok () := by decide
  refine ⟨hid, plainDigest_isSha256 rfl _, fun _ => plainDigest_isSha256 rfl _, ?_⟩
  simp [lockedStaging, lockedTransaction, supplyCommand, netCommand]

def lockedStaged : Transaction := ⟨lockedStaging, checking_ok.mpr ⟨lockedStaging_checks, rfl⟩⟩

theorem stage_locked : perform lockedOpened (.stage supplyCommand) =
    staged lockedOpened supplyCommand lockedStaged := by
  have hhashes : lockedStaging.commandHashes = [plainDigest 'd'] :=
    congrArg (fun hash => [hash]) (@lockedHashing_digest lockedEntries[3] (List.getElem_mem _))
  have hpreview : previewDigestOf lockedStaging = .ok (plainDigest 'f') := by
    unfold previewDigestOf
    rw [bind_ok]
    refine ⟨plainDigest 'e', lockedGraph_graphHash.2, pure_ok.mpr ?_⟩
    rw [hhashes]
    exact @lockedHashing_digest lockedEntries[5] (List.getElem_mem _)
  have happly : applyCommand (lockedGraph [groundNet]) supplyCommand.val =
      .ok (lockedGraph [groundNet, supplyNet]) := rfl
  have hne : lockedGraph [groundNet, supplyNet] ≠ lockedGraph [groundNet] := fun heq =>
    absurd (congrArg (fun g => g.nets.length) heq) (by decide)
  have hrun : (stage supplyCommand).run lockedOpened =
      (.ok lockedStaged, staged lockedOpened supplyCommand lockedStaged) :=
    stage_returns.mpr ⟨lockedTransaction, Dict.set_self Dict.empty "t1" lockedTransaction, rfl,
      Or.inr ⟨rfl, rfl, extend_makes rfl happly lockedGraph_valid.2 hne rfl hpreview, rfl⟩⟩
  rw [perform, hrun]

/-- A command that draws a track under the identifier of the locked one. -/
def redrawCommand : Command where
  val := { supplyCommand.val with
    commandId := "c3"
    kind := .trackAdd
    payload := [("end_x_nm", .int 0), ("end_y_nm", .int 1000), ("layer", .str "F.Cu"),
      ("net_id", .str "n1"), ("start_x_nm", .int 0), ("start_y_nm", .int 0), ("track_id", .str "w1"),
      ("width_nm", .int 100)]
    idempotencyKey := "k3" }
  accepted := by
    refine checking_ok.mpr ⟨?_, rfl⟩
    unfold DesignCommand.checks
    simp only [bind_ok, exists_unit]
    exact ⟨by decide, by decide, by decide, by decide, plainDigest_isSha256 rfl _⟩

/-- It is refused. -/
theorem redraw_locked : perform (staged lockedOpened supplyCommand lockedStaged)
    (.stage redrawCommand) = staged lockedOpened supplyCommand lockedStaged := by
  have happly : ∀ g, applyCommand (lockedGraph [groundNet, supplyNet]) redrawCommand.val ≠ .ok g := by
    intro g h
    cases h
  rw [perform]
  cases hrun : (stage redrawCommand).run (staged lockedOpened supplyCommand lockedStaged) with
  | mk outcome k' =>
      cases outcome with
      | error failure => exact stage_atomicAt redrawCommand failure k' hrun
      | ok t =>
          obtain ⟨t₀, ht₀, -, ⟨hheld, -⟩ | ⟨-, -, hextend, -⟩⟩ := stage_returns.mp hrun
          · cases hheld
          · obtain rfl := Option.some.inj
              ((Dict.set_self lockedOpened.transactions "t1" lockedStaged).symm.trans ht₀)
            obtain ⟨g, _, -, hg, -⟩ := extend_ok hextend
            exact absurd hg (happly g)

/-- A net is created beside the locked track, and a track under its identifier is refused. -/
def lockedOperations : List Operation :=
  [.beginTransaction "t1" (plainDigest 'b'), .stage supplyCommand, .stage redrawCommand]

theorem locked_objects_kept_track : ∃ base : Revision, lockedTrack ∈ base.val.graph.tracks ∧
    ∃ t : Transaction, (replay perform lockedKernel lockedOperations).transactions "t1" = some t ∧
      t.val.commands = [supplyCommand] ∧ lockedTrack ∈ t.val.stagedGraph.tracks := by
  have hend : replay perform lockedKernel lockedOperations =
      staged lockedOpened supplyCommand lockedStaged := by
    unfold lockedOperations
    rw [Replay.cons begin_locked, Replay.cons stage_locked, Replay.cons redraw_locked]
    rfl
  have ht : (replay perform lockedKernel lockedOperations).transactions "t1" =
      some lockedStaged := by
    rw [hend]
    exact Dict.set_self lockedOpened.transactions "t1" lockedStaged
  obtain ⟨base, hbase, hkept, -⟩ := locked_objects_kept lockedHashing_collisionFree init_locked
    lockedOperations "t1" lockedStaged ht
  have hgraph : lockedTrack ∈ base.val.graph.tracks := by
    rw [hend] at hbase
    have hsame : lockedGenesis = base :=
      Option.some.inj ((Dict.set_self Dict.empty (plainDigest 'b') lockedGenesis).symm.trans hbase)
    rw [← hsame]
    exact List.mem_singleton_self _
  exact ⟨base, hgraph, lockedStaged, ht, rfl, hkept.tracks lockedTrack hgraph rfl⟩

end Locked

end Evleda.Kernel
