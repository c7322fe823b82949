/-
The board that is verified, and what a rule reports about it.

Positions and sizes are integers of nanometres.  Records have the fields of the source's.
-/
import Evleda.Lib.Plane
import Evleda.Lib.Collections

namespace Evleda.Verification

/-! ### Records of the board -/

/-- A position in nanometres. -/
abbrev PointNm := Plane.Point Int

inductive PinElectricalType where
  | input | output | bidirectional | passive | powerIn | powerOut | openCollector | noConnect
  | unspecified
  deriving DecidableEq, Repr

def PinElectricalType.value : PinElectricalType → String
  | .input => "input"
  | .output => "output"
  | .bidirectional => "bidirectional"
  | .passive => "passive"
  | .powerIn => "power_in"
  | .powerOut => "power_out"
  | .openCollector => "open_collector"
  | .noConnect => "no_connect"
  | .unspecified => "unspecified"

inductive PadShape where
  | circle | oval | rect | roundrect
  deriving DecidableEq, Repr

def PadShape.value : PadShape → String
  | .circle => "circle"
  | .oval => "oval"
  | .rect => "rect"
  | .roundrect => "roundrect"

structure EntityRef where
  kind : String
  entityId : String
  deriving DecidableEq, Repr

structure Pin where
  number : String
  name : String
  electricalType : PinElectricalType
  required : Bool := true
  padCenter : Option PointNm := none
  padDiameterNm : Int := 0
  layers : List String := []
  padDrillNm : Int := 0
  padNumber : String := ""
  deriving DecidableEq, Repr

structure Component where
  componentId : String
  reference : String
  value : String
  footprint : String
  manufacturerPartNumber : String
  datasheetSha256 : String
  pinMapSha256 : String
  pins : List Pin
  deriving DecidableEq, Repr

structure NetConnection where
  componentId : String
  pinNumber : String
  deriving DecidableEq, Repr

structure Net where
  netId : String
  name : String
  connections : List NetConnection
  externalSource : Bool := false
  deriving DecidableEq, Repr

structure Track where
  trackId : String
  netId : String
  layer : String
  start : PointNm
  finish : PointNm
  widthNm : Int
  deriving DecidableEq, Repr

structure Via where
  viaId : String
  netId : String
  center : PointNm
  diameterNm : Int
  drillNm : Int
  layers : List String
  deriving DecidableEq, Repr

/-- One exact physical copper pad bound to a logical component pin or pad number. -/
structure PhysicalPad where
  padId : String
  componentId : String
  padNumber : String
  netId : Option String
  center : PointNm
  sizeXNm : Int
  sizeYNm : Int
  shape : PadShape
  rotationUdeg : Int
  layers : List String
  drillNm : Int := 0
  drillXNm : Int := 0
  drillYNm : Int := 0
  drillRotationUdeg : Int := 0
  sharedLandGroupId : Option String := none
  deriving DecidableEq, Repr

/-- A footprint drill. -/
structure Hole where
  holeId : String
  componentId : String
  center : PointNm
  diameterNm : Int
  plated : Bool := false
  padId : Option String := none
  drillXNm : Int := 0
  drillYNm : Int := 0
  drillRotationUdeg : Int := 0
  deriving DecidableEq, Repr

structure BoardOutline where
  vertices : List PointNm
  deriving DecidableEq, Repr

inductive ZoneFillState where
  | unfilledIntent | verifiedFilled
  deriving DecidableEq, Repr

structure ZoneFillEvidence where
  sourceGraphHash : String
  sourceRevision : String
  fillEngineId : String
  fillEngineRevision : String
  filledGeometryHash : String
  evidenceHash : String
  deriving DecidableEq, Repr

/-- A zone intent, or verified simple-polygon copper. -/
structure Zone where
  zoneId : String
  netId : String
  layer : String
  outline : BoardOutline
  clearanceNm : Int := 0
  fillState : ZoneFillState := .unfilledIntent
  fillEvidence : Option ZoneFillEvidence := none
  deriving DecidableEq, Repr

structure BoardGraph where
  schemaVersion : Int
  designId : String
  revision : String
  layers : List String
  outline : BoardOutline
  components : List Component
  nets : List Net
  tracks : List Track
  vias : List Via
  unsupportedFeatures : List String := []
  zones : List Zone := []
  holes : List Hole := []
  pads : List PhysicalPad := []
  deriving DecidableEq, Repr

/-! ### Findings -/

inductive Scalar where
  | text (value : String)
  | integer (value : Int)
  | boolean (value : Bool)
  deriving DecidableEq, Repr

/-- A scalar, or a tuple of them. -/
inductive EvidenceValue where
  | text (value : String)
  | integer (value : Int)
  | boolean (value : Bool)
  | scalars (values : List Scalar)
  deriving DecidableEq, Repr

def EvidenceValue.texts (values : List String) : EvidenceValue := .scalars (values.map .text)

structure EvidenceItem where
  name : String
  value : EvidenceValue
  deriving DecidableEq, Repr

structure FindingDraft where
  message : String
  entities : List EntityRef
  evidence : List EvidenceItem
  deriving DecidableEq, Repr

/-! ### Walking over pairs -/

def sharedLayers (first second : List String) : List String := first.filter (· ∈ second)

/-- Every element with each later one, in the order of two nested loops. -/
def laterPairs {α : Type*} : List α → List (α × α)
  | [] => []
  | a :: rest => rest.map (a, ·) ++ laterPairs rest

theorem mem_laterPairs {α : Type*} {items : List α} {pair : α × α} :
    pair ∈ laterPairs items ↔
      ∃ i j : Nat, i < j ∧ items[i]? = some pair.1 ∧ items[j]? = some pair.2 := by
  induction items with
  | nil => simp [laterPairs]
  | cons a rest ih =>
      unfold laterPairs
      rw [List.mem_append, List.mem_map, ih]
      constructor
      · rintro (⟨b, hb, rfl⟩ | ⟨i, j, hij, hi, hj⟩)
        · obtain ⟨j, hj⟩ := List.mem_iff_getElem?.mp hb
          exact ⟨0, j + 1, Nat.succ_pos j, rfl, hj⟩
        · exact ⟨i + 1, j + 1, Nat.succ_lt_succ hij, hi, hj⟩
      · rintro ⟨i, j, hij, hi, hj⟩
        obtain ⟨l, rfl⟩ := Nat.exists_eq_succ_of_ne_zero (Nat.ne_of_gt (Nat.zero_lt_of_lt hij))
        cases i with
        | zero => exact Or.inl ⟨pair.2, List.mem_of_getElem? hj,
            Prod.ext (Option.some.inj hi) rfl⟩
        | succ k => exact Or.inr ⟨k, l, Nat.lt_of_succ_lt_succ hij, hi, hj⟩

theorem mem_of_laterPairs {α : Type*} {items : List α} {pair : α × α}
    (h : pair ∈ laterPairs items) : pair.1 ∈ items ∧ pair.2 ∈ items := by
  obtain ⟨i, j, -, hi, hj⟩ := mem_laterPairs.mp h
  exact ⟨List.mem_of_getElem? hi, List.mem_of_getElem? hj⟩

theorem pairwise_iff_laterPairs {α : Type*} {R : α → α → Prop} {items : List α} :
    items.Pairwise R ↔ ∀ pair ∈ laterPairs items, R pair.1 pair.2 := by
  induction items with
  | nil => simp [laterPairs]
  | cons a rest ih => simp [laterPairs, ih, or_imp, forall_and]

end Evleda.Verification
