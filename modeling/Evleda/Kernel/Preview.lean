/-
The semantic difference an approver is shown.

A preview compares the staged graph of a transaction with the graph of its base
revision, collection by collection, and lists the labels of what was added,
removed and modified.

Nothing is left out.  A graph is not only its entities: it has a schema version
and a project, and its collections have an order.  But no command changes the
first two, and the base and the staged graph of a transaction are their own
normal forms in every run; two such graphs that hold the same under every entity
are the same graph.
-/
import Evleda.InterchangeArtifacts.Models
import Evleda.Kernel.AuthorizedCommits
import Evleda.Kernel.Validity
import Evleda.Lib.Difference

namespace Evleda.Kernel

open Difference Outcome

section Preview

variable [UnicodeData] [Hashing]

/-! ### Entities -/

/-- The collections a difference goes through, in that order. -/
inductive Collection where
  | component | net | placement | track | pad | hole | via | zone | schematicWire
  | schematicJunction
  deriving DecidableEq, Repr

namespace Collection

def all : List Collection :=
  [.component, .net, .placement, .track, .pad, .hole, .via, .zone, .schematicWire,
    .schematicJunction]

omit [UnicodeData] [Hashing] in
theorem mem_all (c : Collection) : c ∈ all := by
  cases c <;> decide

/-- What the labels of a collection's items begin with. -/
def labelKind : Collection → String
  | .component => "component"
  | .net => "net"
  | .placement => "placement"
  | .track => "track"
  | .pad => "pad"
  | .hole => "hole"
  | .via => "via"
  | .zone => "zone"
  | .schematicWire => "schematic-wire"
  | .schematicJunction => "schematic-junction"

abbrev Item : Collection → Type
  | .component => Checked Component.postInit
  | .net => Checked Net.postInit
  | .placement => Checked FootprintPlacement.postInit
  | .track => Checked Track.postInit
  | .pad => Checked FootprintPad.postInit
  | .hole => Checked FootprintHole.postInit
  | .via => Checked Via.postInit
  | .zone => Checked CopperZone.postInit
  | .schematicWire => Checked SchematicWire.postInit
  | .schematicJunction => Checked SchematicJunction.postInit

instance : (c : Collection) → DecidableEq c.Item
  | .component => inferInstanceAs (DecidableEq (Checked Component.postInit))
  | .net => inferInstanceAs (DecidableEq (Checked Net.postInit))
  | .placement => inferInstanceAs (DecidableEq (Checked FootprintPlacement.postInit))
  | .track => inferInstanceAs (DecidableEq (Checked Track.postInit))
  | .pad => inferInstanceAs (DecidableEq (Checked FootprintPad.postInit))
  | .hole => inferInstanceAs (DecidableEq (Checked FootprintHole.postInit))
  | .via => inferInstanceAs (DecidableEq (Checked Via.postInit))
  | .zone => inferInstanceAs (DecidableEq (Checked CopperZone.postInit))
  | .schematicWire => inferInstanceAs (DecidableEq (Checked SchematicWire.postInit))
  | .schematicJunction => inferInstanceAs (DecidableEq (Checked SchematicJunction.postInit))

def items (g : DesignGraph) : (c : Collection) → List c.Item
  | .component => g.components
  | .net => g.nets
  | .placement => g.placements
  | .track => g.tracks
  | .pad => g.pads
  | .hole => g.holes
  | .via => g.vias
  | .zone => g.zones
  | .schematicWire => g.schematicWires
  | .schematicJunction => g.schematicJunctions

/-- A placement goes by the component it places. -/
def identity : (c : Collection) → c.Item → String
  | .component => fun item => item.val.componentId
  | .net => fun item => item.val.netId
  | .placement => fun item => item.val.componentId
  | .track => fun item => item.val.trackId
  | .pad => fun item => item.val.padId
  | .hole => fun item => item.val.holeId
  | .via => fun item => item.val.viaId
  | .zone => fun item => item.val.zoneId
  | .schematicWire => fun item => item.val.wireId
  | .schematicJunction => fun item => item.val.junctionId

end Collection

/-- What a label of a difference names. -/
inductive Entity where
  | item (collection : Collection) (identity : String)
  | layer (name : String)
  | boardOutline
  deriving DecidableEq, Repr

def Entity.label : Entity → String
  | .item c identity => c.labelKind ++ ":" ++ identity
  | .layer name => "layer:" ++ name
  | .boardOutline => "board:outline"

/-- What there is to say of an entity. -/
abbrev Entity.Content : Entity → Type
  | .item c _ => c.Item
  | .layer _ => Unit
  | .boardOutline => List PointNm

/-- What a graph holds under an entity. -/
def DesignGraph.content (g : DesignGraph) : Reading Entity.Content
  | .item c identity => (c.items g).find? (fun item => c.identity item == identity)
  | .layer name => if name ∈ g.layers then some () else none
  | .boardOutline => if g.boardOutline = [] then none else some g.boardOutline

/-! ### The difference -/

/-- The labels of what differs in one collection. -/
def collectionDifference (base staged : DesignGraph) (c : Collection) : Difference String :=
  (ofItems c.identity (c.items base) (c.items staged)).map
    (fun identity => c.labelKind ++ ":" ++ identity)

def layerDifference (base staged : DesignGraph) : Difference String where
  added := (identities id staged.layers (· ∉ base.layers)).map ("layer:" ++ ·)
  removed := (identities id base.layers (· ∉ staged.layers)).map ("layer:" ++ ·)
  modified := []

def outlineDifference (base staged : DesignGraph) : Difference String :=
  if base.boardOutline = [] ∧ staged.boardOutline ≠ [] then ⟨["board:outline"], [], []⟩
  else if base.boardOutline ≠ [] ∧ staged.boardOutline = [] then ⟨[], ["board:outline"], []⟩
  else if base.boardOutline ≠ staged.boardOutline then ⟨[], [], ["board:outline"]⟩
  else Difference.empty

/-- The labels of what differs, collection after collection. -/
def graphDifference (base staged : DesignGraph) : Difference String :=
  join (Collection.all.map (collectionDifference base staged)) ++ layerDifference base staged ++
    outlineDifference base staged

structure SemanticDiff where
  baseRevision : String
  stagedGraphHash : String
  added : List String
  removed : List String
  modified : List String
  commandIds : List String
  previewDigest : String

def SemanticDiff.checks (d : SemanticDiff) : Except Failure Unit := do
  requireSha256 d.baseRevision "semantic diff base revision"
  requireSha256 d.stagedGraphHash "semantic diff staged graph hash"
  requireSha256 d.previewDigest "semantic diff preview digest"

/-- `_diff(base, transaction)` -/
def semanticDiff (base : DesignGraph) (t : DesignTransaction) :
    Except Failure (Checked (checking SemanticDiff.checks)) := do
  let difference := graphDifference base t.stagedGraph
  let stagedGraphHash ← t.stagedGraph.graphHash
  Checked.make (checking_onlyChecks SemanticDiff.checks).stable
    { baseRevision := t.baseRevision
      stagedGraphHash := stagedGraphHash
      added := sortBy id difference.added
      removed := sortBy id difference.removed
      modified := sortBy id difference.modified
      commandIds := t.commands.map (·.val.commandId)
      previewDigest := t.previewDigest }

def preview (k : DesignKernel) (transactionId : String) :
    Except Failure (Checked (checking SemanticDiff.checks)) := do
  let transaction ← getTransaction k transactionId
  let base ← getRevision k transaction.val.baseRevision
  semanticDiff base.val.graph transaction.val

/-! ### Labels -/

section Labels

omit [UnicodeData] [Hashing]

/-- The kind and the name that a label is made of. -/
def Entity.parts : Entity → String × String
  | .item c identity => (c.labelKind, identity)
  | .layer name => ("layer", name)
  | .boardOutline => ("board", "outline")

theorem Entity.label_eq (e : Entity) : e.label = e.parts.1 ++ ":" ++ e.parts.2 := by
  cases e <;> rfl

theorem Entity.colon_not_mem (e : Entity) : ':' ∉ e.parts.1.toList := by
  have hkind : ∀ c : Collection, ':' ∉ c.labelKind.toList := by
    intro c
    cases c <;> decide
  have hlayer : ':' ∉ "layer".toList := by decide
  have hboard : ':' ∉ "board".toList := by decide
  cases e with
  | item c identity => exact hkind c
  | layer name => exact hlayer
  | boardOutline => exact hboard

theorem Collection.labelKind_injective : Function.Injective Collection.labelKind := by
  have hfind : ∀ c : Collection, Collection.all.find? (·.labelKind == c.labelKind) = some c := by
    intro c
    cases c <;> decide
  intro c c' h
  have hfound := hfind c
  rw [h, hfind c'] at hfound
  exact (Option.some.inj hfound).symm

theorem Entity.parts_injective : Function.Injective Entity.parts := by
  have hkind : ∀ c : Collection, c.labelKind ≠ "layer" ∧ c.labelKind ≠ "board" := by
    intro c
    cases c <;> decide
  have hlayer : "layer" ≠ "board" := by decide
  intro e e' h
  obtain ⟨hfirst, hsecond⟩ := Prod.mk.inj h
  cases e with
  | item c identity =>
      cases e' with
      | item c' identity' =>
          obtain rfl := Collection.labelKind_injective hfirst
          obtain rfl : identity = identity' := hsecond
          rfl
      | layer name => exact absurd hfirst (hkind c).1
      | boardOutline => exact absurd hfirst (hkind c).2
  | layer name =>
      cases e' with
      | item c identity => exact absurd hfirst.symm (hkind c).1
      | layer name' =>
          obtain rfl : name = name' := hsecond
          rfl
      | boardOutline => exact absurd hfirst hlayer
  | boardOutline =>
      cases e' with
      | item c identity => exact absurd hfirst.symm (hkind c).2
      | layer name => exact absurd hfirst.symm hlayer
      | boardOutline => rfl

/-- No two entities share a label: no kind has a colon in it. -/
theorem Entity.label_injective : Function.Injective Entity.label := by
  intro e e' h
  rw [Entity.label_eq, Entity.label_eq, ← String.toList_inj] at h
  simp only [String.toList_append, List.append_assoc] at h
  obtain ⟨hkind, hname⟩ := append_cons_inj e.colon_not_mem e'.colon_not_mem h
  exact Entity.parts_injective
    (Prod.ext (String.toList_inj.mp hkind) (String.toList_inj.mp hname))

end Labels

/-! ### The difference reports on every entity -/

/-- The labels of a difference that reports on a set of entities. -/
def Labels (d : Difference String) (S : Set Entity) (base staged : DesignGraph) : Prop :=
  ∃ e : Difference Entity, d = e.map Entity.label ∧ e.Reports S base.content staged.content

/-- The identities of every collection are unique. -/
def Identified (g : DesignGraph) : Prop :=
  ∀ c : Collection, ((c.items g).map c.identity).Nodup

variable {g : DesignGraph}

theorem Valid.identified (h : Valid g) : Identified g := by
  have hids := h.identifiers
  simp only [DesignGraph.identifiers, DesignGraph.netIds, DesignGraph.placementIds,
    List.forall_mem_cons] at hids
  obtain ⟨hcomponents, -, hnets, -, hplacements, htracks, hpads, hholes, hvias, hzones, hwires,
    hjunctions, -⟩ := hids
  intro c
  cases c with
  | component => exact hcomponents
  | net => exact hnets
  | placement => exact hplacements
  | track => exact htracks
  | pad => exact hpads
  | hole => exact hholes
  | via => exact hvias
  | zone => exact hzones
  | schematicWire => exact hwires
  | schematicJunction => exact hjunctions

variable {base staged : DesignGraph}

theorem collectionDifference_labels (hbase : Identified base) (hstaged : Identified staged)
    (c : Collection) : Labels (collectionDifference base staged c) (Set.range (Entity.item c))
      base staged := by
  have hcontent : ∀ {g : DesignGraph}, Identified g →
      byIdentity c.identity (c.items g) = fun identity => g.content (.item c identity) := by
    intro g hg
    funext identity
    exact byIdentity_eq_find? (hg c) identity
  have hreports : (ofItems c.identity (c.items base) (c.items staged)).Reports Set.univ
      (byIdentity c.identity (c.items base)) (byIdentity c.identity (c.items staged)) :=
    ofItems_reports
  rw [hcontent hbase, hcontent hstaged] at hreports
  refine ⟨_, (map_map Entity.label (Entity.item c) _).symm, hreports.map ?_⟩
  intro identity identity' h
  exact (Entity.item.inj h).2

theorem layerDifference_labels (base staged : DesignGraph) :
    Labels (layerDifference base staged) (Set.range Entity.layer) base staged := by
  have hreports : (⟨identities id staged.layers (· ∉ base.layers),
      identities id base.layers (· ∉ staged.layers), []⟩ : Difference String).Reports Set.univ
      (fun name => base.content (.layer name)) (fun name => staged.content (.layer name)) := by
    refine ⟨?_, ?_, ?_, nodup_identities .., nodup_identities .., List.nodup_nil⟩
    · intro name
      simp [mem_identities, Reading.Adds, DesignGraph.content, and_comm]
    · intro name
      simp [mem_identities, Reading.Removes, DesignGraph.content]
    · intro name
      simp +contextual [Reading.Modifies, DesignGraph.content]
  have hlabels : layerDifference base staged = (⟨identities id staged.layers (· ∉ base.layers),
      identities id base.layers (· ∉ staged.layers), []⟩ : Difference String).map
        (Entity.label ∘ Entity.layer) := rfl
  rw [hlabels, ← map_map]
  refine ⟨_, rfl, hreports.map ?_⟩
  intro name name' h
  exact Entity.layer.inj h

theorem outlineDifference_labels (base staged : DesignGraph) :
    Labels (outlineDifference base staged) {.boardOutline} base staged := by
  have hcontent : ∀ {g : DesignGraph},
      g.content .boardOutline = if g.boardOutline = [] then none else some g.boardOutline :=
    fun {g} => rfl
  unfold outlineDifference
  split_ifs with hadded hremoved hmodified
  · refine ⟨⟨[.boardOutline], [], []⟩, rfl, ?_⟩
    constructor <;> simp [Reading.Adds, Reading.Removes, Reading.Modifies, hcontent, hadded]
  · refine ⟨⟨[], [.boardOutline], []⟩, rfl, ?_⟩
    constructor <;> simp [Reading.Adds, Reading.Removes, Reading.Modifies, hcontent, hremoved]
  · refine ⟨⟨[], [], [.boardOutline]⟩, rfl, ?_⟩
    have hbase : base.boardOutline ≠ [] := by
      intro hnil
      exact hadded ⟨hnil, fun hnil' => hmodified (hnil.trans hnil'.symm)⟩
    have hstaged : staged.boardOutline ≠ [] := fun hnil => hremoved ⟨hbase, hnil⟩
    constructor <;> simp [Reading.Adds, Reading.Removes, Reading.Modifies, hcontent, hbase, hstaged,
      hmodified]
  · rw [not_not] at hmodified
    refine ⟨Difference.empty, rfl, ?_⟩
    constructor <;> simp [Reading.Adds, Reading.Removes, Reading.Modifies, hcontent, hmodified,
      Difference.empty]

theorem Labels.append {d d' : Difference String} {S S' : Set Entity}
    (h : Labels d S base staged) (h' : Labels d' S' base staged) (hdisjoint : Disjoint S S') :
    Labels (d ++ d') (S ∪ S') base staged := by
  obtain ⟨e, rfl, he⟩ := h
  obtain ⟨e', rfl, he'⟩ := h'
  exact ⟨e ++ e', (map_append _ e e').symm, he.append he' hdisjoint⟩

theorem collections_labels (hbase : Identified base) (hstaged : Identified staged) :
    Labels (join (Collection.all.map (collectionDifference base staged)))
      {e | ∃ c ∈ Collection.all, e ∈ Set.range (Entity.item c)} base staged := by
  choose e he hreports using collectionDifference_labels hbase hstaged
  refine ⟨join (Collection.all.map e), ?_, reports_join (fun c _ => hreports c) ?_⟩
  · rw [map_join, List.map_map]
    exact congrArg join (List.map_congr_left fun c _ => he c)
  · have hnodup : Collection.all.Nodup := by decide
    refine hnodup.imp ?_
    intro c c' hne
    refine Set.disjoint_left.mpr ?_
    rintro _ ⟨identity, rfl⟩ ⟨identity', h⟩
    exact hne (Entity.item.inj h).1.symm

/-- **The difference of two graphs reports on every entity.** -/
theorem graphDifference_labels (hbase : Identified base) (hstaged : Identified staged) :
    Labels (graphDifference base staged) Set.univ base staged := by
  have hlayers := (collections_labels hbase hstaged).append (layerDifference_labels base staged)
    (Set.disjoint_left.mpr (by rintro _ ⟨c, -, identity, rfl⟩ ⟨name, h⟩; cases h))
  have houtline := hlayers.append (outlineDifference_labels base staged)
    (Set.disjoint_left.mpr (by
      rintro _ (⟨c, -, identity, rfl⟩ | ⟨name, rfl⟩) h <;> cases h))
  have huniv : {e | ∃ c ∈ Collection.all, e ∈ Set.range (Entity.item c)} ∪
      Set.range Entity.layer ∪ {.boardOutline} = Set.univ := by
    refine Set.eq_univ_of_forall ?_
    intro e
    cases e with
    | item c identity => exact .inl (.inl ⟨c, c.mem_all, identity, rfl⟩)
    | layer name => exact .inl (.inr ⟨name, rfl⟩)
    | boardOutline => exact .inr rfl
  rw [huniv] at houtline
  exact houtline

/-! ### What reads the same is the same -/

/-- The two fields of a graph that no label stands for. -/
structure SameHeader (g g' : DesignGraph) : Prop where
  schemaVersion : g'.schemaVersion = g.schemaVersion
  projectId : g'.projectId = g.projectId

omit [UnicodeData] [Hashing] in
theorem sorted_layers_eq {layers layers' : List String} (hsorted : SortedBy id layers)
    (hsorted' : SortedBy id layers') (hnodup : layers.Nodup) (hnodup' : layers'.Nodup)
    (hmem : ∀ name, name ∈ layers ↔ name ∈ layers') : layers = layers' := by
  refine hsorted.eq_of_perm hsorted' ?_ ((List.perm_ext_iff_of_nodup hnodup hnodup').mpr hmem)
  rw [List.map_id]
  exact hnodup

theorem Normal.sorted (h : Normal g) (c : Collection) :
    SortedBy c.identity (c.items g) := by
  cases c with
  | component => exact h.components.sorted
  | net => exact h.nets.sorted
  | placement => exact h.placements.sorted
  | track => exact h.tracks.sorted
  | pad => exact h.pads.sorted
  | hole => exact h.holes.sorted
  | via => exact h.vias.sorted
  | zone => exact h.zones.sorted
  | schematicWire => exact h.schematicWires.sorted
  | schematicJunction => exact h.schematicJunctions.sorted

/-- A graph in normal form that passes the checks. -/
structure Settled (g : DesignGraph) : Prop where
  normal : Normal g
  valid : Valid g

/-- **Settled graphs of one header that hold the same under every entity are equal.** -/
theorem Settled.eq_of_content {g g' : DesignGraph} (hg : Settled g) (hg' : Settled g')
    (hheader : SameHeader g g') (h : ∀ e, g.content e = g'.content e) : g = g' := by
  have hitems : ∀ c : Collection, c.items g = c.items g' := fun c =>
    eq_of_find?_eq (hg.valid.identified c) (hg'.valid.identified c) (hg.normal.sorted c)
      (hg'.normal.sorted c) fun identity => h (.item c identity)
  have hlayers : g.layers = g'.layers := by
    refine sorted_layers_eq hg.normal.layers hg'.normal.layers hg.valid.layersNodup
      hg'.valid.layersNodup ?_
    intro name
    have hname : (if name ∈ g.layers then some () else none) =
        if name ∈ g'.layers then some () else none := h (.layer name)
    by_cases hmem : name ∈ g.layers <;> by_cases hmem' : name ∈ g'.layers <;>
      simp_all only [if_true, if_false, reduceCtorEq]
  have houtline : g.boardOutline = g'.boardOutline := by
    have hring : (if g.boardOutline = [] then none else some g.boardOutline) =
        if g'.boardOutline = [] then none else some g'.boardOutline := h .boardOutline
    split_ifs at hring with hnil hnil'
    · rw [hnil, hnil']
    · exact Option.some.inj hring
  have hschema := hheader.schemaVersion
  have hproject := hheader.projectId
  have hcomponents : g.components = g'.components := hitems .component
  have hnets : g.nets = g'.nets := hitems .net
  have hplacements : g.placements = g'.placements := hitems .placement
  have htracks : g.tracks = g'.tracks := hitems .track
  have hpads : g.pads = g'.pads := hitems .pad
  have hholes : g.holes = g'.holes := hitems .hole
  have hvias : g.vias = g'.vias := hitems .via
  have hzones : g.zones = g'.zones := hitems .zone
  have hwires : g.schematicWires = g'.schematicWires := hitems .schematicWire
  have hjunctions : g.schematicJunctions = g'.schematicJunctions := hitems .schematicJunction
  cases g
  cases g'
  simp only at *
  subst hschema hproject hlayers houtline hcomponents hnets hplacements htracks hpads hholes
  subst hvias hzones hwires hjunctions
  rfl

/-! ### No command changes the header -/

theorem SameHeader.trans {g g' g'' : DesignGraph} (h : SameHeader g g')
    (h' : SameHeader g' g'') : SameHeader g g'' :=
  ⟨h'.schemaVersion.trans h.schemaVersion, h'.projectId.trans h.projectId⟩

theorem normalized_sameHeader {g g' : DesignGraph} (h : g.normalized = .ok g') :
    SameHeader g g' := by
  revert h
  unfold DesignGraph.normalized
  revert g'
  show Outcome.Returns (SameHeader g) _
  repeat refine Outcome.Returns.bind fun _ => ?_
  exact Outcome.Returns.pure ⟨rfl, rfl⟩

theorem apply_sameHeader (g : DesignGraph) (kind : CommandKind) (payload : Payload) :
    Outcome.Returns (SameHeader g) (apply g kind payload) := by
  -- every command ends by returning the graph with some collections replaced
  cases kind <;> unfold apply
  case footprintPadGroupAdd =>
    dsimp only
    unfold applyFootprintPadGroupAdd
    refine Outcome.Returns.bind fun _ => Outcome.Returns.bind fun _ => ?_
    dsimp only
    split
    · repeat refine Outcome.Returns.bind fun _ => ?_
      exact Outcome.Returns.pure ⟨rfl, rfl⟩
    · exact Outcome.Returns.error
  all_goals
    repeat refine Outcome.Returns.bind fun _ => ?_
    exact Outcome.Returns.pure ⟨rfl, rfl⟩

theorem applyCommand_sameHeader {g g' : DesignGraph} {command : DesignCommand}
    (h : applyCommand g command = .ok g') : SameHeader g g' := by
  unfold applyCommand at h
  rw [bind_ok] at h
  obtain ⟨applied, happlied, hnormalized⟩ := h
  exact (apply_sameHeader g _ _ applied happlied).trans (normalized_sameHeader hnormalized)

/-! ### Every run keeps its graphs comparable -/

/-- A settled graph with the header the kernel started with. -/
structure Comparable (root g : DesignGraph) : Prop where
  settled : Settled g
  header : SameHeader root g

/-- A transaction that can be previewed. -/
structure Previewable (root : DesignGraph) (revisions : Dict String Revision)
    (t : DesignTransaction) : Prop where
  based : ∃ base, revisions t.baseRevision = some base
  comparable : Comparable root t.stagedGraph
  digest : previewDigestOf t = .ok t.previewDigest

/-- All revisions of the kernel are comparable and all its transactions can be previewed. -/
structure Governed (root : DesignGraph) (k : DesignKernel) : Prop where
  revisions : ∀ hash r, k.revisions hash = some r → Comparable root r.val.graph
  transactions : ∀ transactionId t, k.transactions transactionId = some t →
    Previewable root k.revisions t.val

variable {root : DesignGraph} {revisions : Dict String Revision}

theorem Comparable.of_normalized {g g' : DesignGraph} (hheader : SameHeader root g)
    (hnormalized : g.normalized = .ok g') (hvalid : validateGraph g' = .ok ()) :
    Comparable root g' :=
  ⟨⟨normal_of_normalized (normalized_idem hnormalized hvalid), validateGraph_iff.mp hvalid⟩,
    hheader.trans (normalized_sameHeader hnormalized)⟩

theorem Previewable.extended {t t' : Transaction} (h : Previewable root revisions t.val)
    (hextended : Extended t t') : Previewable root revisions t'.val := by
  obtain ⟨message, command, hextend⟩ := hextended
  obtain ⟨g, digest, -, hg, hvalid, hdigest, ht'⟩ := extend_ok hextend
  rw [ht'] at hdigest ⊢
  have hnormal := applyCommand_normal hg hvalid
  exact ⟨h.based, .of_normalized (h.comparable.header.trans (applyCommand_sameHeader hg)) hnormal
    hvalid, hdigest⟩

theorem Previewable.extendedMany {t t' : Transaction} (h : Previewable root revisions t.val)
    (hextended : Relation.ReflTransGen Extended t t') : Previewable root revisions t'.val := by
  induction hextended with
  | refl => exact h
  | tail _ hstep ih => exact ih.extended hstep

/-- Revisions are added or replaced, never removed. -/
theorem Previewable.set {t : DesignTransaction} (h : Previewable root revisions t)
    (hash : String) (r : Revision) : Previewable root (revisions.set hash r) t := by
  obtain ⟨base, hbase⟩ := h.based
  refine ⟨?_, h.comparable, h.digest⟩
  by_cases hhash : t.baseRevision = hash
  · exact ⟨r, hhash ▸ Dict.set_self ..⟩
  · exact ⟨base, (Dict.set_of_ne _ _ hhash).trans hbase⟩

theorem Governed.setTransaction {k k' : DesignKernel} {transactionId : String} {t : Transaction}
    (h : Governed root k) (hrevisions : k'.revisions = k.revisions)
    (htransactions : k'.transactions = k.transactions.set transactionId t)
    (ht : Previewable root k.revisions t.val) : Governed root k' := by
  constructor
  · rw [hrevisions]
    exact h.revisions
  · intro other t' ht'
    rw [htransactions] at ht'
    rw [hrevisions]
    obtain ⟨rfl, rfl⟩ | ⟨-, hother⟩ := Dict.set_eq_some ht'
    · exact ht
    · exact h.transactions other t' hother

/-- **One move keeps the graphs comparable.** -/
theorem Governed.moves {k k' : DesignKernel} (h : Governed root k) (hmoves : Moves k k') :
    Governed root k' := by
  cases hmoves with
  | stays => exact h
  | @opens transactionId baseRevision t hnew hopen =>
      obtain ⟨head, digest, hbase, hhead, hdigest, hval⟩ := openTransaction_ok hopen
      refine h.setTransaction rfl rfl ?_
      rw [hval] at hdigest ⊢
      exact ⟨⟨head, hbase ▸ hhead⟩, h.revisions _ _ hhead, hdigest⟩
  | @«extends» transactionId t₀ t _ _ ht₀ hextended =>
      exact h.setTransaction rfl rfl ((h.transactions _ _ ht₀).extendedMany hextended)
  | @verifies transactionId reportHash gatePassed t₀ t ht₀ hverified =>
      have hpreviewable := h.transactions _ _ ht₀
      unfold verifiedTransaction at hverified
      simp only [bind_ok, exists_unit, require_ok] at hverified
      refine h.setTransaction rfl rfl ?_
      rw [replace_ok hverified.2]
      exact ⟨hpreviewable.based, hpreviewable.comparable, hpreviewable.digest⟩
  | @rollsBack transactionId t₀ t ht₀ hstate hreplace =>
      have hpreviewable := h.transactions _ _ ht₀
      refine h.setTransaction rfl rfl ?_
      rw [replace_ok hreplace]
      exact ⟨hpreviewable.based, hpreviewable.comparable, hpreviewable.digest⟩
  | @commits transactionId t₀ t verified r consumed ht₀ hrevision hreplace =>
      have hpreviewable := h.transactions _ _ ht₀
      obtain ⟨parent, graph, graphHash, -, -, -, -, -, hgraph, -, hr⟩ :=
        committedRevision_ok hrevision
      have hnormal := hpreviewable.comparable.settled.normal.normalized
      obtain rfl : t₀.val.stagedGraph = graph := Except.ok.inj (hnormal.symm.trans hgraph)
      constructor
      · intro hash r' hr'
        obtain ⟨-, rfl⟩ | ⟨-, hold⟩ := Dict.set_eq_some hr'
        · rw [hr]
          exact hpreviewable.comparable
        · exact h.revisions _ _ hold
      · intro other t' ht'
        obtain ⟨-, rfl⟩ | ⟨-, hother⟩ := Dict.set_eq_some ht'
        · refine Previewable.set ?_ _ r
          rw [replace_ok hreplace]
          exact ⟨hpreviewable.based, hpreviewable.comparable, hpreviewable.digest⟩
        · exact (h.transactions _ _ hother).set _ r

theorem init_governed {k : DesignKernel} (h : DesignKernel.init g = .ok k) :
    Governed g k := by
  unfold DesignKernel.init at h
  simp only [bind_ok, exists_unit, pure_ok] at h
  obtain ⟨normalized, hnormalized, hvalid, graphHash, -, root, hroot, rfl⟩ := h
  have hval := (checking_ok.mp (Checked.make_ok.mp hroot)).2
  constructor
  · intro hash r hr
    obtain ⟨-, rfl⟩ | ⟨-, hempty⟩ := Dict.set_eq_some hr
    · rw [hval]
      exact .of_normalized ⟨rfl, rfl⟩ hnormalized hvalid
    · cases hempty
  · intro transactionId t ht
    cases ht

/-- **Every run keeps its graphs comparable and its transactions previewable.** -/
theorem run_governed {k : DesignKernel} (h : DesignKernel.init g = .ok k)
    (operations : List Operation) : Governed g (replay perform k operations) :=
  Replay.invariant (init_governed h) (fun k op hk => hk.moves (perform_moves k op)) operations

/-! ### The preview -/

/-- The preview lists exactly what differs between two graphs, every entity once and in one
list, and is empty only if nothing does. -/
structure Shows (d : SemanticDiff) (before after : DesignGraph) : Prop where
  added : ∀ e : Entity, e.label ∈ d.added ↔ Reading.Adds before.content after.content e
  removed : ∀ e : Entity, e.label ∈ d.removed ↔ Reading.Removes before.content after.content e
  modified : ∀ e : Entity, e.label ∈ d.modified ↔ Reading.Modifies before.content after.content e
  labels : ∀ label ∈ d.added ++ d.removed ++ d.modified, ∃ e : Entity, e.label = label
  nodup : (d.added ++ d.removed ++ d.modified).Nodup
  nothing : d.added = [] ∧ d.removed = [] ∧ d.modified = [] ↔ before = after

omit [UnicodeData] [Hashing] in
theorem mem_sorted_labels {l : List Entity} {e : Entity} :
    e.label ∈ sortBy id (l.map Entity.label) ↔ e ∈ l := by
  rw [mem_sortBy]
  exact List.mem_map_of_injective Entity.label_injective

omit [UnicodeData] [Hashing] in
theorem sortBy_eq_nil {l : List String} : sortBy id l = [] ↔ l = [] := by
  simp only [List.eq_nil_iff_forall_not_mem, mem_sortBy]

theorem shows_of_labels {base staged : DesignGraph} {d : SemanticDiff}
    (hbase : Comparable root base) (hstaged : Comparable root staged)
    (hadded : d.added = sortBy id (graphDifference base staged).added)
    (hremoved : d.removed = sortBy id (graphDifference base staged).removed)
    (hmodified : d.modified = sortBy id (graphDifference base staged).modified) :
    Shows d base staged := by
  obtain ⟨e, he, hreports⟩ := graphDifference_labels hbase.settled.valid.identified
    hstaged.settled.valid.identified
  rw [he] at hadded hremoved hmodified
  simp only [Difference.map] at hadded hremoved hmodified
  have hlabels : (d.added ++ d.removed ++ d.modified).Perm
      ((e.added ++ e.removed ++ e.modified).map Entity.label) := by
    rw [hadded, hremoved, hmodified, List.map_append, List.map_append]
    exact ((sortBy_perm _).append (sortBy_perm _)).append (sortBy_perm _)
  refine ⟨?_, ?_, ?_, ?_, ?_, ?_⟩
  · intro entity
    rw [hadded, mem_sorted_labels, hreports.added]
    exact and_iff_right trivial
  · intro entity
    rw [hremoved, mem_sorted_labels, hreports.removed]
    exact and_iff_right trivial
  · intro entity
    rw [hmodified, mem_sorted_labels, hreports.modified]
    exact and_iff_right trivial
  · intro label hlabel
    obtain ⟨entity, -, hentity⟩ := List.mem_map.mp (hlabels.mem_iff.mp hlabel)
    exact ⟨entity, hentity⟩
  · exact hlabels.nodup_iff.mpr (hreports.nodup.map Entity.label_injective)
  · have hheader : SameHeader base staged :=
      ⟨hstaged.header.schemaVersion.trans hbase.header.schemaVersion.symm,
        hstaged.header.projectId.trans hbase.header.projectId.symm⟩
    rw [hadded, hremoved, hmodified, sortBy_eq_nil, sortBy_eq_nil, sortBy_eq_nil]
    simp only [List.map_eq_nil_iff]
    rw [hreports.nothing_iff]
    constructor
    · intro hsame
      exact hbase.settled.eq_of_content hstaged.settled hheader fun entity => hsame entity trivial
    · rintro rfl entity -
      rfl

open InterchangeArtifacts (HexDigests)

theorem semanticDiff_returns (hhex : HexDigests) {base : DesignGraph} {t : Transaction}
    (hbase : Comparable root base) (ht : Previewable root revisions t.val) :
    ∃ d, semanticDiff base t.val = .ok d ∧ Shows d.val base t.val.stagedGraph := by
  have hdigest := ht.digest
  unfold previewDigestOf at hdigest
  simp only [bind_ok, pure_ok] at hdigest
  obtain ⟨graphHash, hgraphHash, hpreview⟩ := hdigest
  have hhash := hgraphHash
  unfold DesignGraph.graphHash at hhash
  simp only [bind_ok, pure_ok, exists_unit] at hhash
  obtain ⟨_, -, -, hstable⟩ := hhash
  have hchecks := transaction_checks t
  unfold DesignTransaction.checks at hchecks
  simp only [bind_ok, exists_unit] at hchecks
  have hmake : ∀ d : SemanticDiff, d.baseRevision = t.val.baseRevision →
      d.stagedGraphHash = graphHash → d.previewDigest = t.val.previewDigest →
      d.checks = .ok () := by
    intro d hd hd' hd''
    unfold SemanticDiff.checks requireSha256
    simp only [bind_ok, exists_unit, require_ok]
    rw [hd, hd', hd'', ← hstable, ← hpreview]
    have hbaseRevision := hchecks.2.1
    unfold requireSha256 at hbaseRevision
    exact ⟨require_ok.mp hbaseRevision, hhex _, hhex _⟩
  let d : SemanticDiff :=
    { baseRevision := t.val.baseRevision
      stagedGraphHash := graphHash
      added := sortBy id (graphDifference base t.val.stagedGraph).added
      removed := sortBy id (graphDifference base t.val.stagedGraph).removed
      modified := sortBy id (graphDifference base t.val.stagedGraph).modified
      commandIds := t.val.commands.map (·.val.commandId)
      previewDigest := t.val.previewDigest }
  have hd : checking SemanticDiff.checks d = .ok d := checking_ok.mpr ⟨hmake d rfl rfl rfl, rfl⟩
  refine ⟨⟨d, hd⟩, ?_, shows_of_labels hbase ht.comparable rfl rfl rfl⟩
  unfold semanticDiff
  rw [bind_ok]
  exact ⟨graphHash, hgraphHash, Checked.make_ok.mpr hd⟩

/-- **In every run the preview of a transaction shows exactly what differs between the normal
forms of its base and its staged graph.** -/
theorem preview_shows (hhex : HexDigests) {k : DesignKernel}
    (h : DesignKernel.init g = .ok k) (operations : List Operation) {transactionId : String}
    {t : Transaction}
    (ht : (replay perform k operations).transactions transactionId = some t) :
    ∃ base before after diff,
      (replay perform k operations).revisions t.val.baseRevision = some base ∧
      base.val.graph.normalized = .ok before ∧ t.val.stagedGraph.normalized = .ok after ∧
      preview (replay perform k operations) transactionId = .ok diff ∧
      Shows diff.val before after := by
  have hgoverned := run_governed h operations
  have hpreviewable := hgoverned.transactions _ _ ht
  obtain ⟨base, hbase⟩ := hpreviewable.based
  have hcomparable := hgoverned.revisions _ _ hbase
  obtain ⟨diff, hdiff, hshows⟩ := semanticDiff_returns hhex hcomparable hpreviewable
  refine ⟨base, _, _, diff, hbase, hcomparable.settled.normal.normalized,
    hpreviewable.comparable.settled.normal.normalized, ?_, hshows⟩
  unfold preview
  rw [bind_ok]
  refine ⟨t, getTransaction_ok.mpr ht, ?_⟩
  rw [bind_ok]
  exact ⟨base, found_ok.mpr hbase, hdiff⟩

end Preview

/-! ### A net, staged and previewed -/

section Sample

attribute [local instance] asciiData hexHashing

theorem init_hex : DesignKernel.init emptyGraph = .ok hexKernel :=
  init_plain emptyGraph_normalized emptyGraph_valid (emptyGraph_graphHash hexHashing_digest)
    (genesisHash_empty hexHashing_digest) rfl

theorem replay_hex : replay perform hexKernel
    [.beginTransaction "t1" (plainDigest 'b'), .stage netCommand] = hexStaged := by
  have hbegin : (beginTransaction "t1" (plainDigest 'b')).run hexKernel =
      (.ok openedTransaction, hexOpened) :=
    beginTransaction_opens (by decide) (plainDigest_isSha256 rfl _) rfl
      (openTransaction_empty hexHashing_digest rfl
        (Dict.set_self Dict.empty (plainDigest 'b') hexGenesis) rfl)
  have hstage : (stage netCommand).run hexOpened = (.ok stagedNet, hexStaged) :=
    stage_returns.mpr ⟨openedTransaction, Dict.set_self Dict.empty "t1" openedTransaction, rfl,
      Or.inr ⟨rfl, rfl, extend_net hexHashing_digest _, rfl⟩⟩
  have hopened : perform hexKernel (.beginTransaction "t1" (plainDigest 'b')) = hexOpened := by
    rw [perform, hbegin]
  have hstaged : perform hexOpened (.stage netCommand) = hexStaged := by
    rw [perform, hstage]
  exact (Replay.cons hopened _).trans (Replay.cons hstaged [])

theorem preview_shows_net : ∃ diff,
    preview (replay perform hexKernel
      [.beginTransaction "t1" (plainDigest 'b'), .stage netCommand]) "t1" = .ok diff ∧
    "net:n1" ∈ diff.val.added := by
  have hstored : (replay perform hexKernel
      [.beginTransaction "t1" (plainDigest 'b'), .stage netCommand]).transactions "t1" =
      some stagedNet := by
    rw [replay_hex]
    exact Dict.set_self (Dict.empty.set "t1" openedTransaction) "t1" stagedNet
  obtain ⟨base, before, after, diff, hbase, hbefore, hafter, hdiff, hshows⟩ :=
    preview_shows hexHashing_hexDigests init_hex _ hstored
  refine ⟨diff, hdiff, (hshows.added (.item .net "n1")).mpr ?_⟩
  have hgenesis : hexStaged.revisions stagedNet.val.baseRevision = some hexGenesis :=
    Dict.set_self Dict.empty (plainDigest 'b') hexGenesis
  rw [replay_hex, hgenesis] at hbase
  obtain rfl := Option.some.inj hbase
  obtain rfl : emptyGraph = before :=
    Except.ok.inj (emptyGraph_normalized.symm.trans hbefore)
  obtain rfl : netGraph = after := Except.ok.inj (netGraph_normalized.symm.trans hafter)
  refine ⟨rfl, ?_⟩
  have hnet : netGraph.content (.item .net "n1") = some ⟨⟨"n1", "GND", []⟩, rfl⟩ := rfl
  rw [hnet]
  exact Option.some_ne_none _

end Sample

end Evleda.Kernel
