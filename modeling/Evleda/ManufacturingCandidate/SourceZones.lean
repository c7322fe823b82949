/-
The authored zones of a board, and the board without what KiCad generates.

When KiCad fills the zones of a board it also writes the board anew: defaults appear,
net codes change, numbers are spelled otherwise and hidden properties get new
identifiers.  The source board and the filled one are therefore both reduced to one
form.  The reduction walks the expression once: it drops what is generated, puts the
effective value in the place of a default, writes numbers and rings in one way and
sorts the children of a node by their text.
-/
import Evleda.ManufacturingCandidate.FilledBoard

namespace Evleda.ManufacturingCandidate

open KicadIo

/-! ### Children and numbers -/

/-- `_children` -/
def childrenNamed (expression : SExpr) (name : String) : List SExpr :=
  (children expression).filter (fun item => item.head == some name)

/-- `_only_child` -/
def onlyChild (label : String) (expression : SExpr) (name : String) : Except Failure SExpr :=
  match childrenNamed expression name with
  | [item] => .ok item
  | _ => .error (.contractError (label ++ " requires exactly one " ++ name))

/-- `_only_scalar_child` -/
def onlyScalarChild (label : String) (expression : SExpr) (name : String) :
    Except Failure String := do
  let item ← onlyChild label expression name
  match item with
  | .list [_, value] => scalar (label ++ " " ++ name) value
  | _ => .error (.contractError (label ++ " " ++ name ++ " must contain one exact scalar"))

/-- `_DECIMAL.fullmatch`, with the number that is spelled. -/
def decimalText (text : String) : Option Decimal :=
  let (negative, unsigned) := Numeral.splitSign text.toList
  match Numeral.readFinite negative unsigned with
  | some (.finite d) => some d
  | _ => none

/-- The text of a number that the context can hold. -/
def numberText (d : Decimal) : Except Failure String :=
  if d.coefficient = 0 then .ok "0"
  else if d.value = d.toIntegral.value then
    if Writable d.toInt then .ok (toString d.toInt) else .error .valueError
  else
    match Numeral.defaultContext.reduce d with
    | some reduced => .ok (Decimal.fixedText reduced)
    | none => .error .decimalOverflow

/-- `_canonical_decimal` -/
def canonicalDecimal (label value : String) : Except Failure String :=
  match decimalText value with
  | none => .error (.contractError (label ++ " is not an exact decimal"))
  | some d =>
      if Numeral.Representable d then numberText d
      else .error (.contractError (label ++ " is not an exact decimal"))

/-- The number that a canonical text spells; it always spells one. -/
def spelled (text : String) : Decimal := (decimalText text).getD ⟨false, 0, 0⟩

/-- `_millimetres_to_nm` -/
def outlineNm (label : String) (value : SExpr) : Except Failure Int := do
  let text ← scalar label value
  let canonical ← canonicalDecimal label text
  match Numeral.defaultContext.multiply (spelled canonical) (Decimal.ofInt 1000000) with
  | none => .error .decimalOverflow
  | some scaled => do
      require (scaled.value = scaled.toIntegral.value)
        (.contractError (label ++ " has sub-nanometre precision"))
      return scaled.toIntegral.toInt

/-! ### Outlines -/

/-- `_normalize_ring` -/
def normalizeOutline (points : List Vertex) : Except Failure (List Vertex) := do
  let values := openRing points
  require (3 ≤ values.length ∧ 3 ≤ values.dedup.length)
    (.contractError "authored zone outline has fewer than three unique vertices")
  return Cyclic.least values

def outlinePoint (item : SExpr) : Except Failure Vertex :=
  match item with
  | .list [_, x, y] =>
      if item.head = some "xy" then do
        let xNm ← outlineNm "zone outline X" x
        let yNm ← outlineNm "zone outline Y" y
        return toLex (xNm, yNm)
      else .error (.contractError "authored zone outline contains a non-xy primitive")
  | _ => .error (.contractError "authored zone outline contains a non-xy primitive")

/-- `_polygon_outline` -/
def polygonOutline (polygon : SExpr) : Except Failure (List Vertex) :=
  match polygon with
  | .list [_, points] =>
      if points.head = some "pts" then do
        let vertices ← (children points).mapM outlinePoint
        normalizeOutline vertices
      else .error (.contractError "authored zone polygon must contain only one pts list")
  | _ => .error (.contractError "authored zone polygon must contain only one pts list")

/-- `_zone_outline` -/
def zoneOutline (zone : SExpr) : Except Failure (List Vertex) :=
  match childrenNamed zone "polygon" with
  | [polygon] => polygonOutline polygon
  | _ => .error (.contractError "authored zone requires exactly one polygon outline")

/-! ### Nets -/

section Nets

variable [DecimalDigits]

/-- `str.isdecimal` -/
def isDecimalText (text : String) : Bool :=
  text != "" && text.toList.all fun c =>
    c.isDigit || (128 ≤ c.toNat && (DecimalDigits.digitOf c).isSome)

/-- `_net_table`, for one declaration. -/
def declareNet (table : List (String × String)) (item : SExpr) :
    Except Failure (List (String × String)) :=
  if item.head = some "net" then
    match item with
    | .list [_, codeItem, nameItem] => do
        let code ← scalar "root net code" codeItem
        let name ← scalar "root net name" nameItem
        require (isDecimalText code ∧ code ∉ table.map Prod.fst ∧ name ∉ table.map Prod.snd)
          (.contractError "root net table is not unique and canonical")
        return table ++ [(code, name)]
    | _ => .error (.contractError "root net declaration must contain code and name")
  else .ok table

/-- `_net_table`: the names of the nets under their codes. -/
def netTable (root : SExpr) : Except Failure (List (String × String)) := do
  require (root.head = some "kicad_pcb") (.contractError "board must be a KiCad PCB S-expression")
  (children root).foldlM declareNet []

/-- `net_table.get(first, first)` -/
def netName (nets : List (String × String)) (first : String) : String :=
  (nets.lookup first).getD first

omit [DecimalDigits] in
/-- `_resolve_net` -/
def resolveNet (nets : List (String × String)) (label : String) (node : SExpr) :
    Except Failure String :=
  match node with
  | .list (_ :: firstItem :: rest) =>
      if rest.length ≤ 1 then do
        let first ← scalar (label ++ " net") firstItem
        let resolved := netName nets first
        rest.forM fun nameItem => do
          let supplied ← scalar (label ++ " net name") nameItem
          require (supplied = resolved)
            (.contractError (label ++ " net code/name pair is inconsistent"))
        require (resolved ≠ "") (.contractError (label ++ " must bind a connected net"))
        return resolved
      else .error (.contractError (label ++ " net must contain a name or code/name pair"))
  | _ => .error (.contractError (label ++ " net must contain a name or code/name pair"))

/-- `_zone_net` -/
def zoneNet (nets : List (String × String)) (zone : SExpr) : Except Failure String := do
  let node ← onlyChild "authored zone" zone "net"
  let name ← resolveNet nets "authored zone" node
  match childrenNamed zone "net_name" with
  | [] => return name
  | [.list [_, suppliedItem]] => do
      let supplied ← scalar "authored zone net_name" suppliedItem
      require (supplied = name) (.contractError "authored zone net and net_name disagree")
      return name
  | _ => .error (.contractError "authored zone net_name is malformed or duplicated")

end Nets

/-! ### Nodes -/

/-- `_canonical_scalar` -/
def canonicalScalar (value : SExpr) : Except Failure SExpr := do
  let text ← scalar "KiCad scalar" value
  if (decimalText text).isSome then do
    let number ← canonicalDecimal "KiCad number" text
    return .quoted ("#number:" ++ number)
  else return .quoted ("#text:" ++ text)

/-- `_sort_nodes` -/
def sortNodes (values : List SExpr) : List SExpr :=
  values.filter (fun item => !item.isList) ++
    sortBy canonicalText (values.filter SExpr.isList)

/-- `_is_exact_scalar_node` -/
def isExactScalarNode (expression : SExpr) (name value : String) : Except Failure Bool :=
  match expression with
  | .list [_, item] =>
      if expression.head = some name then do
        let text ← scalar name item
        return text = value
      else .ok false
  | _ => .ok false

/-- The scalar that stands on one side of a two-sided setting. -/
def sideEntry (name : String) (item : SExpr) : Except Failure (Option (Option String × String)) :=
  match item with
  | .list [_, value] => do
      let text ← scalar (name ++ " side") value
      return some (item.head, text)
  | _ => .ok none

/-- `_is_exact_front_back` -/
def isExactFrontBack (expression : SExpr) (name value : String) : Except Failure Bool :=
  match expression with
  | .list [_, first, second] =>
      if expression.head = some name then do
        let entries ← [first, second].mapM (sideEntry name)
        let sides := entries.filterMap id
        return sides = [(some "front", value), (some "back", value)] ∨
          sides = [(some "back", value), (some "front", value)]
      else .ok false
  | _ => .ok false

/-- The texts of the scalars of a node, after its head. -/
def sideTexts (expression : SExpr) : Except Failure (List String) :=
  ((children expression).filter (fun item => !item.isList)).mapM (scalar "tenting side")

/-- `{"front", "back"}` -/
def areBothSides (texts : List String) : Bool :=
  texts.all (· ∈ ["front", "back"]) && "front" ∈ texts && "back" ∈ texts

/-- `_is_kicad_default_tenting` -/
def isKicadDefaultTenting (expression : SExpr) : Except Failure Bool := do
  let both ← isExactFrontBack expression "tenting" "yes"
  if both then return true
  else if expression.head = some "tenting" then do
    let texts ← sideTexts expression
    return (children expression).length = 2 ∧ areBothSides texts
  else return false

/-! ### The walk -/

/-- What the walk collects. -/
structure Trace where
  paths : List String
  generated : Nat

def Trace.none : Trace := ⟨[], 0⟩

/-- First the one, then the other. -/
def Trace.append (a b : Trace) : Trace := ⟨a.paths ++ b.paths, a.generated + b.generated⟩

/-- The footprint that an expression stands in: its UUID and its library identity. -/
structure Place where
  uuid : Option String
  library : Option String

/-- How the walk goes on from a node: it has the reduced node, or it goes into the children, of
which an identifier is volatile. -/
inductive Entered
  | done (result : Option SExpr) (trace : Trace)
  | inside (place : Place) (identity : Option String) (trace : Trace)

/-- The footprint of a node and of what stands in it. -/
def placeOf (place : Place) (expression : SExpr) : Except Failure Place :=
  if expression.head = some "footprint" then
    match expression with
    | .list (_ :: libraryItem :: _) => do
        let library ← scalar "footprint library identity" libraryItem
        let uuid ← onlyScalarChild "footprint" expression "uuid"
        require (isUuid uuid) (.contractError "footprint UUID is invalid")
        return ⟨some uuid, some library⟩
    | _ => .error (.contractError "footprint is missing its library identity")
  else .ok place

/-- A property of a footprint: redundant, volatile, or an ordinary one. -/
def enterProperty (place : Place) (expression : SExpr) : Except Failure Entered :=
  match expression with
  | .list (_ :: nameItem :: valueItem :: _) =>
      if expression.head = some "property" then do
        let name ← scalar "property name" nameItem
        let value ← scalar "property value" valueItem
        if name = "Footprint" then do
          require (place.library = some value)
            (.contractError "redundant Footprint property disagrees with library")
          return .done none Trace.none
        else if name ∈ volatileProperties then
          match place.uuid with
          | none => .error (.contractError "volatile property is outside a footprint")
          | some uuid => do
              validateVolatilePropertyValue "volatile property value is not canonical" value
              let hide ← onlyChild "volatile property" expression "hide"
              match hide with
              | .list [_, mode] => do
                  let text ← scalar "hide" mode
                  require (text = "yes") (.contractError "volatile property must be hidden")
              | _ => .error (.contractError "volatile property must be hidden")
              let uuidNode ← onlyChild "volatile property" expression "uuid"
              match uuidNode with
              | .list [_, identifier] => do
                  let text ← scalar "volatile property UUID" identifier
                  require (isUuid text) (.contractError "volatile property UUID is invalid")
              | _ => .error (.contractError "volatile property UUID is malformed")
              let identity := uuid ++ "/" ++ name
              if value = "" then return .done none ⟨[identity], 0⟩
              else return .inside place (some identity) ⟨[identity], 0⟩
        else return .inside place none Trace.none
      else return .inside place none Trace.none
  | _ => .ok (.inside place none Trace.none)

/-- A coordinate of an outline, as text. -/
def nmNode (n : Int) : Except Failure SExpr :=
  if Writable n then .ok (.quoted ("#nm:" ++ toString n)) else .error .valueError

/-- A vertex of an outline, reduced. -/
def vertexNode (vertex : Vertex) : Except Failure SExpr := do
  let x ← nmNode (ofLex vertex).1
  let y ← nmNode (ofLex vertex).2
  return node (word "xy") [x, y]

/-- What the walk does at a node before it goes into the children. -/
def enter (nets : List (String × String)) (name parent : String) (place : Place)
    (expression : SExpr) : Except Failure Entered := do
  let current ← placeOf place expression
  let entered ← enterProperty current expression
  match entered with
  | .done result trace => return .done result trace
  | .inside current identity trace =>
      if name = "polygon" ∧ parent = "zone" then do
        let outline ← polygonOutline expression
        let points ← outline.mapM vertexNode
        return .done (some (node (word "polygon") [node (word "pts") points])) trace
      else if name = "net" ∧ parent ≠ "kicad_pcb" then do
        let net ← resolveNet nets (if parent = "" then "entity" else parent) expression
        return .done (some (node (word "net") [.quoted ("#text:" ++ net)])) trace
      else return .inside current identity trace

/-- What becomes of a child: it is left out, left out and counted, kept for the effective fill, or
walked into. -/
inductive Handling
  | drop
  | generated
  | fill
  | walk

/-- The roots of a board that its form does not keep. -/
def droppedAtRoot : List String :=
  ["version", "generator", "generator_version", "embedded_fonts", "net", "layers"]

def generatedZoneHeads : List String := ["filled_polygon", "fill_segments"]

/-- `setup` and `via` do without the defaults that KiCad writes. -/
def isSetupDefault (name : String) (item : SExpr) : Except Failure Bool := do
  let twoSided ← if item.head = some "covering" ∨ item.head = some "plugging" then
      isExactFrontBack item (item.head.getD "") "no"
    else .ok false
  if twoSided then return true
  let oneSided ← if item.head = some "capping" ∨ item.head = some "filling" then
      isExactScalarNode item (item.head.getD "") "no"
    else .ok false
  if oneSided then return true
  if name = "setup" ∧ item.head = some "pcbplotparams" then return true
  if name = "setup" then isKicadDefaultTenting item
  else return false

/-- How a child of a node is handled. -/
def handling (derivative : Bool) (name : String) (item : SExpr) : Except Failure Handling :=
  if name = "kicad_pcb" ∧ ∃ head ∈ item.head, head ∈ droppedAtRoot then .ok .drop
  else if name = "zone" ∧ item.head = some "net_name" then .ok .drop
  else if name = "zone" ∧ ∃ head ∈ item.head, head ∈ generatedZoneHeads then
    if derivative then .ok .generated
    else .error (.contractError "source board contains generated zone fill")
  else if name = "zone" ∧ item.head = some "fill" then .ok .fill
  else do
    let isDefault ←
      if name = "footprint" ∧ (item.head = some "embedded_fonts" ∨
          item.head = some "duplicate_pad_numbers_are_jumpers") then
        isExactScalarNode item (item.head.getD "") "no"
      else if name = "pad" ∧ item.head = some "remove_unused_layers" then
        isExactScalarNode item "remove_unused_layers" "no"
      else if name = "gr_line" ∧ item.head = some "fill" then
        isExactScalarNode item "fill" "none"
      else if name = "setup" ∨ name = "via" then isSetupDefault name item
      else .ok false
    return if isDefault then .drop else .walk

/-- The values of a fill that KiCad writes when they are absent. -/
def defaultFillValues : List (Atom × String) :=
  [(word "island_removal_mode", "0"), (word "thermal_bridge_width", "0.5"),
    (word "thermal_gap", "0.5")]

/-- The effective fill of a zone. -/
def fillNode (values : List (String × String)) (extras : List SExpr) : SExpr :=
  let setting := fun entry : Atom × String =>
    node entry.1 [.quoted ("#number:" ++ (values.lookup entry.1.value).getD entry.2)]
  node (word "fill")
    (.quoted "#text:yes" :: (defaultFillValues.map setting ++ sortBy canonicalText extras))

/-- The children of a node, reduced: the fill is only reduced when all others are. -/
structure Parts where
  values : List SExpr
  trace : Trace
  fill : Option (Except Failure (SExpr × Trace))

/-- The last child of `at` is an angle, which is reduced to one turn. -/
def reduceAngle (values : List SExpr) : Except Failure (List SExpr) :=
  match values.getLast? with
  | some (.quoted text) =>
      if text.startsWith "#number:" then
        match Numeral.defaultContext.remainder (spelled (text.drop 8).toString)
            (Decimal.ofInt 360) with
        | none => .error .invalidOperation
        | some turned => do
            let angle := if turned.value < 0 then
                (Numeral.defaultContext.add turned (Decimal.ofInt 360)).getD turned
              else turned
            let canonical := if angle.value = angle.toIntegral.value then toString angle.toInt
              else Decimal.fixedText ((Numeral.defaultContext.reduce angle).getD angle)
            return values.dropLast ++ [.quoted ("#number:" ++ canonical)]
      else .error (.contractError "KiCad at angle is not numeric")
  | _ => .error (.contractError "KiCad at angle is not numeric")

/-- The children of a node as they are written: a shorthand spelled out, an angle reduced, and all
in order. -/
def finish (name parent : String) (expression : SExpr) (values : List SExpr) :
    Except Failure (List SExpr) := do
  let values ← if name = "tenting" then do
      let texts ← sideTexts expression
      if texts = [] then .ok values
      else do
        require (areBothSides texts ∧ (children expression).length = 2)
          (.contractError "setup tenting shorthand is unsupported")
        return [node (word "back") [.quoted "#text:yes"], node (word "front") [.quoted "#text:yes"]]
    else .ok values
  let values ← if name = "at" then
      if values.length = 2 then reduceAngle (values ++ [.quoted "#number:0"])
      else if 3 ≤ values.length then reduceAngle values
      else .ok values
    else .ok values
  return if name = "layers" then
      if parent ≠ "kicad_pcb" then sortBy canonicalText values else values
    else if name = "pts" then values
    else sortNodes values

section Walk

variable (nets : List (String × String)) (derivative : Bool)

mutual

/-- `recurse` -/
def normalize (parent : String) (place : Place) :
    SExpr → Except Failure (Option SExpr × Trace)
  | .list items =>
      match items with
      | .atom head :: rest => do
          let entered ← enter nets head.value parent place (.list (.atom head :: rest))
          match entered with
          | .done result trace => return (result, trace)
          | .inside place identity trace => do
              let parts ← normalizeItems head.value place identity false rest
              let (values, trace) ← if head.value = "zone" then do
                  let (fill, filled) ← parts.fill.getD (.ok (fillNode [] [], Trace.none))
                  pure (parts.values ++ [fill], (trace.append parts.trace).append filled)
                else pure (parts.values, trace.append parts.trace)
              let values ← finish head.value parent (.list (.atom head :: rest)) values
              return (some (.list (.atom head :: values)), trace)
      | items => do
          let (values, trace) ← normalizeAll parent place items
          return (some (.list values), trace)
  | expression => do
      let reduced ← canonicalScalar expression
      return (some reduced, Trace.none)

/-- The items of a list without a head. -/
def normalizeAll (parent : String) (place : Place) :
    List SExpr → Except Failure (List SExpr × Trace)
  | [] => .ok ([], Trace.none)
  | item :: rest => do
      let (reduced, trace) ← normalize parent place item
      let (others, traces) ← normalizeAll parent place rest
      return (reduced.toList ++ others, trace.append traces)

/-- The children of a node with a head; `filled` when a fill has been met. -/
def normalizeItems (name : String) (place : Place) (identity : Option String) (filled : Bool) :
    List SExpr → Except Failure Parts
  | [] => .ok ⟨[], Trace.none, none⟩
  | item :: rest => do
      let handling ← handling derivative name item
      match handling with
      | .drop => normalizeItems name place identity filled rest
      | .generated => do
          let parts ← normalizeItems name place identity filled rest
          return { parts with trace := Trace.append ⟨[], 1⟩ parts.trace }
      | .fill => do
          require (filled = false) (.contractError "zone has duplicate fill configuration")
          let fill := effectiveFill item
          let parts ← normalizeItems name place identity true rest
          return { parts with fill := some fill }
      | .walk => do
          let (reduced, trace) ← match identity with
            | some volatileAt =>
                if item.head = some "uuid" then
                  .ok (some (node (word "uuid")
                      [.quoted ("#text:<volatile:" ++ volatileAt ++ ">")]),
                    Trace.none)
                else normalize name place item
            | none => normalize name place item
          let parts ← normalizeItems name place identity filled rest
          return { parts with
            values := reduced.toList ++ parts.values
            trace := trace.append parts.trace }

/-- `_effective_fill` -/
def effectiveFill : SExpr → Except Failure (SExpr × Trace)
  | .list items =>
      match items with
      | _ :: mode :: rest => do
          let text ← scalar "zone fill mode" mode
          require (text = "yes") (.contractError "zone fill must use exact KiCad mode 'yes'")
          let (values, extras, trace) ← fillItems [] rest
          return (fillNode values extras, trace)
      | _ => .error (.contractError "zone fill must use exact KiCad mode 'yes'")
  | _ => .error .assertionError

/-- The items of a fill after its mode; `values` have been met. -/
def fillItems (values : List (String × String)) :
    List SExpr → Except Failure (List (String × String) × List SExpr × Trace)
  | [] => .ok (values, [], Trace.none)
  | item :: rest =>
      if ∃ head ∈ item.head, head ∈ defaultFillValues.map (·.1.value) then
        match item with
        | .list [.atom head, valueItem] => do
            require (head.value ∉ values.map Prod.fst)
              (.contractError "zone fill default is malformed or duplicated")
            let value ← scalar ("zone fill " ++ head.value) valueItem
            let number ← canonicalDecimal ("zone fill " ++ head.value) value
            fillItems (values ++ [(head.value, number)]) rest
        | _ => .error (.contractError "zone fill default is malformed or duplicated")
      else do
        let (reduced, trace) ← normalize "fill" ⟨none, none⟩ item
        match reduced with
        | some (.list items) => do
            let (values, extras, traces) ← fillItems values rest
            return (values, .list items :: extras, trace.append traces)
        | _ => .error .assertionError

end

end Walk

/-! ### Boards -/

/-- Identity of one authored zone. -/
structure AuthoredZoneIdentity where
  zoneUuid : String
  netName : String
  layer : String
  normalizedOutlineNm : List Vertex
  authoredZoneSha256 : String
  three : 3 ≤ normalizedOutlineNm.length

namespace AuthoredZoneIdentity

/-- What identities are compared by. -/
def key (zone : AuthoredZoneIdentity) :
    String ×ₗ String ×ₗ String ×ₗ List Vertex ×ₗ String :=
  toLex (zone.zoneUuid, toLex (zone.netName, toLex (zone.layer,
    toLex (zone.normalizedOutlineNm, zone.authoredZoneSha256))))

/-- The constructor. -/
def make (zoneUuid netName layer : String) (outline : List Vertex) (sha256 : String) :
    Except Failure AuthoredZoneIdentity := do
  require (isUuid zoneUuid) (.contractError "authored zone UUID is invalid")
  require (netName ≠ "") (.contractError "authored zone net must be non-empty exact text")
  require (layer ≠ "") (.contractError "zone layer must be non-empty exact text")
  if hthree : 3 ≤ outline.length then do
    require (Text.isSha256 sha256)
      (.contractError "authored zone semantic hash must be a lowercase SHA-256 digest")
    return ⟨zoneUuid, netName, layer, outline, sha256, hthree⟩
  else .error (.contractError "authored zone outline needs at least three vertices")

end AuthoredZoneIdentity

/-- `_NormalizedBoard` -/
structure NormalizedBoard where
  semanticText : String
  volatilePaths : List String
  generatedFillNodeCount : Nat
  zones : List AuthoredZoneIdentity

def zoneLayer (zone : SExpr) : Except Failure String :=
  match childrenNamed zone "layer", childrenNamed zone "layers" with
  | [.list [_, value]], [] => scalar "authored zone layer" value
  | [], [.list [_, value]] => scalar "authored zone layer" value
  | _, _ => .error (.contractError "authored zone must use exactly one layer")

section Boards

variable [Hashing] [DecimalDigits]

omit [DecimalDigits] in
/-- An authored zone, with the places of the volatile identifiers in it. -/
def authoredZone (nets : List (String × String)) (derivative : Bool) (zone : SExpr) :
    Except Failure (AuthoredZoneIdentity × List String) := do
  let zoneUuid ← onlyScalarChild "authored zone" zone "uuid"
  require (isUuid zoneUuid) (.contractError "authored zone UUID is invalid")
  let layer ← zoneLayer zone
  let netName ← zoneNet nets zone
  let (authored, trace) ← normalize nets derivative "kicad_pcb" ⟨none, none⟩ zone
  match authored with
  | some (.list items) => do
      let outline ← zoneOutline zone
      let digest := Hashing.inDomain "kicad-authored-zone-v1"
        (.str (String.ofList (canonicalText (.list items))))
      let identity ← AuthoredZoneIdentity.make zoneUuid netName layer outline digest
      return (identity, trace.paths)
  | _ => .error .assertionError

/-- `_normalize_board`, once the board is read. -/
def normalizeRoot (derivative : Bool) (root : SExpr) : Except Failure NormalizedBoard := do
  require (root.head = some "kicad_pcb") (.contractError "board must be a KiCad PCB S-expression")
  let nets ← netTable root
  let (normalized, trace) ← normalize nets derivative "" ⟨none, none⟩ root
  match normalized with
  | some (.list items) => do
      require (derivative = true → 1 ≤ trace.generated)
        (.contractError "derivative board contains no generated zone fill")
      require trace.paths.Nodup
        (.contractError "volatile property identities are not unique")
      let zones ← (zonesOf root).mapM (authoredZone nets derivative)
      require (zones ≠ []) (.contractError "board must contain one or more authored zones")
      require ((zones.map fun zone => zone.1.zoneUuid).Nodup)
        (.contractError "authored zone UUIDs are not unique")
      return {
        semanticText := String.ofList (canonicalText (.list items))
        volatilePaths := sortBy id (trace.paths ++ zones.flatMap (·.2))
        generatedFillNodeCount := trace.generated
        zones := sortBy AuthoredZoneIdentity.key (zones.map (·.1)) }
  | _ => .error .assertionError

/-- `_normalize_board` -/
def normalizeBoard (derivative : Bool) (payload : ByteArray) : Except Failure NormalizedBoard := do
  require (payload.size ≠ 0)
    (.contractError "source and derivative boards must be non-empty exact bytes")
  let root ← (parse defaultLimits payload).mapError .kicad
  normalizeRoot derivative root

end Boards

end Evleda.ManufacturingCandidate
