/-
What the semantic digest of a filled board forgets.

`erase` puts one UUID in the place of the UUID of every hidden datasheet and description
property that stands in a footprint, and leaves everything else.  The walk of the
normalizer reads the UUIDs of the footprints and the names of the properties, none of
which it rewrites, so that walking an erased board gives what walking the board gives,
and erasing what the walk returns gives the board erased.
-/
import Evleda.ManufacturingCandidate.FilledBoard

namespace Evleda.ManufacturingCandidate

open KicadIo Outcome

def propertyTexts : SExpr → Option (String × String)
  | .list (_ :: nameItem :: valueItem :: _) => do
      let name ← (nameItem.scalarText "").toOption
      let value ← (valueItem.scalarText "").toOption
      return (name, value)
  | _ => none

/-- The mode of the `hide` of an expression. -/
def hideMode (expression : SExpr) : Option String :=
  match child expression "hide" with
  | some (.list [_, mode]) => (mode.scalarText "").toOption
  | _ => none

/-- A hidden datasheet or description property. -/
def isHiddenVolatile (expression : SExpr) : Bool :=
  expression.head == some "property" && hideMode expression == some "yes" &&
    (propertyTexts expression).any (fun texts => texts.1 ∈ volatileProperties)

/-- The UUID that stands for all others. -/
def anyUuid : String := "00000000-0000-1000-8000-000000000000"

def eraseUuid : SExpr → SExpr
  | .list [first, _] => .list [first, .quoted anyUuid]
  | item => item

mutual

/-- The expression, which stands in a footprint or not, with the UUID of every hidden datasheet and
description property of a footprint replaced. -/
def erase (inside : Bool) : SExpr → SExpr
  | .list items =>
      let within := inside || (SExpr.list items).head == some "footprint"
      .list (eraseItems within (within && isHiddenVolatile (.list items)) items)
  | expression => expression

def eraseItems (inside isVolatile : Bool) : List SExpr → List SExpr
  | [] => []
  | item :: rest =>
      (if isVolatile = true ∧ item.head = some "uuid" then eraseUuid item else erase inside item) ::
        eraseItems inside isVolatile rest

end

/-! ### What the walk reads -/

/-- A scalar, or that there is a list. -/
def top : SExpr → SExpr
  | .list _ => .list []
  | expression => expression

/-- An expression without what stands inside the lists in it. -/
def surface : SExpr → SExpr
  | .list items => .list (items.map top)
  | expression => expression

def below : SExpr → SExpr
  | .list items => .list (items.map surface)
  | expression => expression

/-- The surface of an item, unless it is a UUID. -/
def frameItem (item : SExpr) : SExpr :=
  if item.head = some "uuid" then node (word "uuid") [] else surface item

/-- An expression with the surface of its items, but not of the UUIDs among them. -/
def frame : SExpr → SExpr
  | .list items => .list (items.map frameItem)
  | expression => expression

variable {e e' : SExpr} {items items' : List SExpr}

@[simp] theorem surface_head (e : SExpr) : (surface e).head = e.head := by
  unfold surface
  split
  · rename_i items
    match items with
    | [] => rfl
    | .atom _ :: _ => rfl
    | .quoted _ :: _ => rfl
    | .list _ :: _ => rfl
  · rfl

@[simp] theorem surface_scalarText (e : SExpr) (label : String) :
    (surface e).scalarText label = e.scalarText label := by
  cases e <;> rfl

@[simp] theorem frameItem_head (item : SExpr) : (frameItem item).head = item.head := by
  unfold frameItem
  split
  · rename_i h
    rw [h]
    rfl
  · exact surface_head item

@[simp] theorem frameItem_scalarText (item : SExpr) (label : String) :
    (frameItem item).scalarText label = item.scalarText label := by
  unfold frameItem
  split
  · rename_i h
    cases item with
    | atom a => cases h
    | quoted value => cases h
    | list items => rfl
  · exact surface_scalarText item label

@[simp] theorem below_head (e : SExpr) : (below e).head = e.head := by
  cases e with
  | atom a => rfl
  | quoted value => rfl
  | list items =>
      match items with
      | [] => rfl
      | .atom _ :: _ => rfl
      | .quoted _ :: _ => rfl
      | .list _ :: _ => rfl

@[simp] theorem frame_head (e : SExpr) : (frame e).head = e.head := by
  cases e with
  | atom a => rfl
  | quoted value => rfl
  | list items =>
      match items with
      | [] => rfl
      | .atom _ :: _ => rfl
      | .quoted _ :: _ => rfl
      | .list first :: rest =>
          have hlist : frameItem (.list first) = surface (.list first) ∨
              frameItem (.list first) = node (word "uuid") [] := by
            unfold frameItem
            split
            · exact Or.inr rfl
            · exact Or.inl rfl
          rcases hlist with h | h <;> rw [frame, List.map_cons, h] <;> rfl

/-- What is read of an expression up to its surface, is read of it with the surface of its items. -/
theorem scalarChild_below (e : SExpr) (name : String) :
    scalarChild (below e) name = scalarChild e name := by
  have hchild : child (below e) name = (child e name).map surface := by
    cases e with
    | atom a => rfl
    | quoted value => rfl
    | list items =>
        unfold child
        show List.find? _ (List.map surface items).tail = (List.find? _ items.tail).map surface
        rw [← List.map_tail, List.find?_map]
        congr 2
        funext item
        simp
  unfold scalarChild
  rw [hchild]
  match child e name with
  | none => rfl
  | some (.atom a) => rfl
  | some (.quoted value) => rfl
  | some (.list []) => rfl
  | some (.list [_]) => rfl
  | some (.list (_ :: value :: _)) =>
      cases value <;> rfl

theorem propertyTexts_frame (e : SExpr) : propertyTexts (frame e) = propertyTexts e := by
  match e with
  | .atom a => rfl
  | .quoted value => rfl
  | .list [] => rfl
  | .list [_] => rfl
  | .list [_, _] => rfl
  | .list (first :: nameItem :: valueItem :: rest) =>
      simp only [frame, List.map_cons, propertyTexts, frameItem_scalarText]

theorem hideMode_frame (e : SExpr) : hideMode (frame e) = hideMode e := by
  have hchild : child (frame e) "hide" = (child e "hide").map surface := by
    cases e with
    | atom a => rfl
    | quoted value => rfl
    | list items =>
        unfold child
        show List.find? _ (List.map _ items).tail = (List.find? _ items.tail).map surface
        rw [← List.map_tail, List.find?_map]
        have hpredicate : ((fun item : SExpr => item.head == some "hide") ∘ frameItem) =
            fun item => item.head == some "hide" := by
          funext item
          simp
        rw [hpredicate]
        cases hfind : items.tail.find? (fun item => item.head == some "hide") with
        | none => rfl
        | some item =>
            have hhead := List.find?_some hfind
            rw [beq_iff_eq] at hhead
            simp [frameItem, hhead]
  unfold hideMode
  rw [hchild]
  match child e "hide" with
  | none => rfl
  | some (.atom a) => rfl
  | some (.quoted value) => rfl
  | some (.list []) => rfl
  | some (.list [_]) => rfl
  | some (.list [_, mode]) =>
      cases mode <;> rfl
  | some (.list (_ :: _ :: _ :: _)) => rfl

theorem isHiddenVolatile_frame (e : SExpr) : isHiddenVolatile (frame e) = isHiddenVolatile e := by
  unfold isHiddenVolatile
  rw [frame_head, hideMode_frame, propertyTexts_frame]

/-! ### Volatile properties -/

/-- The UUIDs among the items of an expression. -/
def uuidsOf (expression : SExpr) : List SExpr :=
  (children expression).filter (fun item => item.head == some "uuid")

def SpellsUuid (item : SExpr) : Prop := ∃ text ∈ (item.scalarText "").toOption, isUuid text

/-- An expression with one UUID, which is well formed. -/
def HasUuid (expression : SExpr) : Prop :=
  ∃ first identifier, uuidsOf expression = [.list [first, identifier]] ∧ SpellsUuid identifier

/-- The checks on the value of a volatile property. -/
def ValueCanonical (value : String) : Prop :=
  value.length ≤ 4096 ∧ value = Text.strip value ∧
    ∀ c ∈ value.toList, 32 ≤ c.toNat ∧ c.toNat ≠ 127

theorem scalar_toOption {label text : String} :
    scalar label e = .ok text ↔ (e.scalarText "").toOption = some text := by
  unfold scalar
  cases e <;> simp [SExpr.scalarText, Except.mapError, Except.toOption]

theorem propertyTexts_cons {first nameItem valueItem : SExpr} {rest : List SExpr}
    {name value label label' : String} :
    propertyTexts (.list (first :: nameItem :: valueItem :: rest)) = some (name, value) ↔
      scalar label nameItem = .ok name ∧ scalar label' valueItem = .ok value := by
  rw [propertyTexts, scalar_toOption, scalar_toOption]
  cases (nameItem.scalarText "").toOption <;> cases (valueItem.scalarText "").toOption <;> simp

/-- The checks on the `hide` of a volatile property, before others. -/
theorem hideMode_yes {α : Type} {failure failure' : Failure} {after : Except Failure α} {a : α} :
    (match child e "hide" with
      | some (.list [_, mode]) => do
          let text ← scalar "hide" mode
          require (text = "yes") failure
          after
      | _ => do
          Except.error failure'
          after) = .ok a ↔ hideMode e = some "yes" ∧ after = .ok a := by
  unfold hideMode
  split
  · simp only [bind_ok, require_ok, scalar_toOption, exists_const]
    constructor
    · rintro ⟨text, htext, rfl, hafter⟩
      exact ⟨htext, hafter⟩
    · rintro ⟨htext, hafter⟩
      exact ⟨"yes", htext, rfl, hafter⟩
  · refine iff_of_false ?_ (by simp)
    intro h
    obtain ⟨_, h, -⟩ := bind_ok.mp h
    cases h

/-- The checks on the UUID of a volatile property, before others. -/
theorem hasUuid_ok {α : Type} {failure failure' failure'' : Failure} {after : Except Failure α}
    {a : α} :
    (match (children e).filter (fun item => item.head == some "uuid") with
      | [.list [_, identifier]] => do
          require (∃ text ∈ (identifier.scalarText "").toOption, isUuid text) failure
          after
      | [_] => do
          Except.error failure'
          after
      | _ => do
          Except.error failure''
          after) = .ok a ↔ HasUuid e ∧ after = .ok a := by
  unfold HasUuid uuidsOf
  have hfails : ∀ f : Failure, ¬ (do Except.error f; after) = .ok a := by
    intro f h
    obtain ⟨_, h, -⟩ := bind_ok.mp h
    cases h
  split
  · rename_i first identifier hfilter
    rw [hfilter]
    simp only [bind_ok, require_ok, exists_const]
    refine and_congr_left ?_
    intro _
    constructor
    · intro h
      exact ⟨first, identifier, rfl, h⟩
    · rintro ⟨first', identifier', hsame, h⟩
      cases hsame
      exact h
  · rename_i item hother hfilter
    refine iff_of_false (hfails _) ?_
    rintro ⟨⟨first, identifier, hfound, -⟩, -⟩
    exact hother first identifier (List.cons.inj (hfilter.symm.trans hfound)).1
  · rename_i hother hmany
    refine iff_of_false (hfails _) ?_
    rintro ⟨⟨first, identifier, hfound, -⟩, -⟩
    exact hother first identifier hfound

theorem volatileIdentity_some {footprint : Option String} {place : String} :
    volatileIdentity footprint e = .ok (some place) ↔ ∃ uuid name value,
      footprint = some uuid ∧ e.head = some "property" ∧ propertyTexts e = some (name, value) ∧
        name ∈ volatileProperties ∧ ValueCanonical value ∧ hideMode e = some "yes" ∧ HasUuid e ∧
        uuid ++ "/" ++ name = place := by
  unfold volatileIdentity
  split
  · rename_i first nameItem valueItem rest
    by_cases hhead : (SExpr.list (first :: nameItem :: valueItem :: rest)).head = some "property"
    · rw [if_pos hhead]
      simp only [bind_ok, hhead, true_and]
      constructor
      · rintro ⟨name, hname, value, hvalue, h⟩
        by_cases hvolatile : name ∈ volatileProperties
        · rw [if_pos hvolatile] at h
          cases footprint with
          | none => cases h
          | some uuid =>
              simp only [bind_ok, validateVolatilePropertyValue, require_ok, exists_const] at h
              obtain ⟨hcanonical, h⟩ := h
              obtain ⟨hmode, h⟩ := hideMode_yes.mp h
              obtain ⟨huuid, h⟩ := hasUuid_ok.mp h
              have hplace := Option.some.inj (Except.ok.inj h)
              refine ⟨uuid, name, value, rfl, ?_, hvolatile, hcanonical, hmode, huuid, hplace⟩
              exact propertyTexts_cons.mpr ⟨hname, hvalue⟩
        · rw [if_neg hvolatile] at h
          cases h
      · rintro ⟨uuid, name, value, rfl, htexts, hvolatile, hcanonical, hmode, huuid, hplace⟩
        obtain ⟨hname, hvalue⟩ := propertyTexts_cons.mp htexts
        refine ⟨name, hname, value, hvalue, ?_⟩
        rw [if_pos hvolatile]
        simp only [bind_ok, validateVolatilePropertyValue, require_ok, exists_const]
        refine ⟨hcanonical, hideMode_yes.mpr ⟨hmode, hasUuid_ok.mpr ⟨huuid, ?_⟩⟩⟩
        exact congrArg Except.ok (congrArg some hplace)
    · rw [if_neg hhead]
      refine iff_of_false (fun h => by cases h) ?_
      rintro ⟨uuid, name, value, -, hproperty, -⟩
      exact hhead hproperty
  · rename_i hshort
    refine iff_of_false (fun h => by cases h) ?_
    rintro ⟨uuid, name, value, -, -, htexts, -⟩
    unfold propertyTexts at htexts
    split at htexts
    · exact hshort _ _ _ _ rfl
    · cases htexts

theorem volatileIdentity_none {footprint : Option String} :
    volatileIdentity footprint e = .ok none ↔ e.head ≠ some "property" ∨
      (children e).length < 2 ∨
      ∃ name value, propertyTexts e = some (name, value) ∧ name ∉ volatileProperties := by
  unfold volatileIdentity
  split
  · rename_i first nameItem valueItem rest
    by_cases hhead : (SExpr.list (first :: nameItem :: valueItem :: rest)).head = some "property"
    · rw [if_pos hhead]
      simp only [bind_ok, hhead, ne_eq, not_true_eq_false, false_or]
      constructor
      · rintro ⟨name, hname, value, hvalue, h⟩
        by_cases hvolatile : name ∈ volatileProperties
        · rw [if_pos hvolatile] at h
          cases footprint with
          | none => cases h
          | some uuid =>
              simp only [bind_ok, validateVolatilePropertyValue, require_ok, exists_const] at h
              cases (hasUuid_ok.mp (hideMode_yes.mp h.2).2).2
        · exact Or.inr ⟨name, value, propertyTexts_cons.mpr ⟨hname, hvalue⟩, hvolatile⟩
      · rintro (hshort | ⟨name, value, htexts, hvolatile⟩)
        · simp only [children, List.tail_cons, List.length_cons] at hshort
          omega
        · obtain ⟨hname, hvalue⟩ := propertyTexts_cons.mp htexts
          refine ⟨name, hname, value, hvalue, ?_⟩
          rw [if_neg hvolatile]
          rfl
    · rw [if_neg hhead]
      exact iff_of_true rfl (Or.inl hhead)
  · rename_i hshort
    refine iff_of_true rfl (Or.inr (Or.inl ?_))
    cases e with
    | atom a => simp [children]
    | quoted value => simp [children]
    | list items =>
        rcases items with _ | ⟨first, _ | ⟨nameItem, _ | ⟨valueItem, rest⟩⟩⟩
        · simp [children]
        · simp [children]
        · simp [children]
        · exact absurd rfl (hshort _ _ _ _)

theorem isHiddenVolatile_of_none {footprint : Option String}
    (h : volatileIdentity footprint e = .ok none) : isHiddenVolatile e = false := by
  rw [← Bool.not_eq_true, isHiddenVolatile]
  intro hvolatile
  simp only [Bool.and_eq_true, beq_iff_eq, Option.any_eq_true, decide_eq_true_eq] at hvolatile
  obtain ⟨⟨hhead, -⟩, ⟨name, value⟩, htexts, hname⟩ := hvolatile
  rcases volatileIdentity_none.mp h with hother | hshort | ⟨name', value', htexts', hname'⟩
  · exact hother hhead
  · unfold propertyTexts at htexts
    split at htexts
    · simp only [children, List.tail_cons, List.length_cons] at hshort
      omega
    · cases htexts
  · cases htexts.symm.trans htexts'
    exact hname' hname

/-- Without its UUIDs, an expression is a volatile property or not. -/
theorem volatileIdentity_none_congr {footprint : Option String} (hframe : frame e = frame e') :
    volatileIdentity footprint e = .ok none ↔ volatileIdentity footprint e' = .ok none := by
  have hlength : ∀ e, (children (frame e)).length = (children e).length := by
    intro e
    cases e <;> simp [frame, children]
  rw [volatileIdentity_none, volatileIdentity_none, ← frame_head e, ← frame_head e', ← hlength e,
    ← hlength e', ← propertyTexts_frame e, ← propertyTexts_frame e', hframe]

theorem volatileIdentity_some_congr {footprint : Option String} {place : String}
    (hframe : frame e = frame e') (huuid : HasUuid e')
    (h : volatileIdentity footprint e = .ok (some place)) :
    volatileIdentity footprint e' = .ok (some place) := by
  rw [volatileIdentity_some] at h ⊢
  obtain ⟨uuid, name, value, hfootprint, hhead, htexts, hname, hvalue, hmode, -, hplace⟩ := h
  rw [← frame_head, hframe, frame_head] at hhead
  rw [← propertyTexts_frame, hframe, propertyTexts_frame] at htexts
  rw [← hideMode_frame, hframe, hideMode_frame] at hmode
  exact ⟨uuid, name, value, hfootprint, hhead, htexts, hname, hvalue, hmode, huuid, hplace⟩

/-! ### The walk -/

section Walk

variable {footprint identity : Option String} {n : SExpr} {walked : List SExpr}
  {paths : List String}

theorem walk_list : walk footprint (.list items) = .ok (n, paths) ↔
    ∃ current identity walked others, footprintOf footprint (.list items) = .ok current ∧
      volatileIdentity current (.list items) = .ok identity ∧
      walkItems current identity items = .ok (walked, others) ∧
      n = .list walked ∧ paths = identity.toList ++ others := by
  rw [walk]
  simp only [bind_ok, pure_ok, Prod.mk.injEq, Prod.exists]
  constructor
  · rintro ⟨current, hcurrent, identity, hidentity, walked, others, hitems, rfl, rfl⟩
    exact ⟨current, identity, walked, others, hcurrent, hidentity, hitems, rfl, rfl⟩
  · rintro ⟨current, identity, walked, others, hcurrent, hidentity, hitems, rfl, rfl⟩
    exact ⟨current, hcurrent, identity, hidentity, walked, others, hitems, rfl, rfl⟩

/-- What the walk makes of one item: the placeholder, or what walking the item gives. -/
def Walked (footprint identity : Option String) (item first : SExpr) (paths : List String) : Prop :=
  (∃ place, identity = some place ∧ item.head = some "uuid" ∧ first = placeholder place ∧
    paths = []) ∨
  ((identity = none ∨ item.head ≠ some "uuid") ∧ walk footprint item = .ok (first, paths))

theorem walkItems_nil : walkItems footprint identity [] = .ok (walked, paths) ↔
    walked = [] ∧ paths = [] := by
  rw [walkItems, Except.ok.injEq, Prod.mk.injEq]
  exact and_congr eq_comm eq_comm

theorem walkItems_cons {item : SExpr} {rest : List SExpr} :
    walkItems footprint identity (item :: rest) = .ok (walked, paths) ↔
      ∃ first own others elsewhere, Walked footprint identity item first own ∧
        walkItems footprint identity rest = .ok (others, elsewhere) ∧
        walked = first :: others ∧ paths = own ++ elsewhere := by
  cases identity with
  | none =>
      rw [walkItems]
      simp only [bind_ok, pure_ok, Prod.mk.injEq, Prod.exists, Walked]
      constructor
      · rintro ⟨first, own, hfirst, others, elsewhere, hrest, rfl, rfl⟩
        exact ⟨first, own, others, elsewhere, Or.inr ⟨Or.inl trivial, hfirst⟩, hrest, rfl, rfl⟩
      · rintro ⟨first, own, others, elsewhere, ⟨place, hplace, -⟩ | ⟨-, hfirst⟩, hrest, rfl, rfl⟩
        · cases hplace
        · exact ⟨first, own, hfirst, others, elsewhere, hrest, rfl, rfl⟩
  | some place =>
      rw [walkItems]
      by_cases huuid : item.head = some "uuid"
      · simp only [if_pos huuid, bind_ok, pure_ok, Prod.mk.injEq, Prod.exists, Walked]
        constructor
        · rintro ⟨first, own, hfirst, others, elsewhere, hrest, rfl, rfl⟩
          cases hfirst
          exact ⟨_, _, others, elsewhere, Or.inl ⟨place, rfl, huuid, rfl, rfl⟩, hrest, rfl, rfl⟩
        · rintro ⟨first, own, others, elsewhere, ⟨place', hplace, -, rfl, rfl⟩ | ⟨hother, -⟩, hrest,
            rfl, rfl⟩
          · cases hplace
            exact ⟨_, _, rfl, others, _, hrest, rfl, rfl⟩
          · rcases hother with hnone | hother
            · cases hnone
            · exact absurd huuid hother
      · simp only [if_neg huuid, bind_ok, pure_ok, Prod.mk.injEq, Prod.exists, Walked]
        constructor
        · rintro ⟨first, own, hfirst, others, elsewhere, hrest, rfl, rfl⟩
          exact ⟨first, own, others, elsewhere, Or.inr ⟨Or.inr huuid, hfirst⟩, hrest, rfl, rfl⟩
        · rintro ⟨first, own, others, elsewhere, ⟨_, -, hhead, -⟩ | ⟨-, hfirst⟩, hrest, rfl, rfl⟩
          · exact absurd hhead huuid
          · exact ⟨first, own, hfirst, others, elsewhere, hrest, rfl, rfl⟩

/-- Scalars are walked to themselves and lists to lists. -/
theorem walk_top (h : walk footprint e = .ok (n, paths)) : top n = top e := by
  cases e with
  | atom a =>
      cases h
      rfl
  | quoted value =>
      cases h
      rfl
  | list items =>
      obtain ⟨current, identity, walked, others, -, -, -, rfl, -⟩ := walk_list.mp h
      rfl

theorem Walked.top {item first : SExpr} (h : Walked footprint identity item first paths) :
    top first = top item := by
  rcases h with ⟨place, rfl, hhead, rfl, -⟩ | ⟨-, hwalk⟩
  · cases item with
    | atom a => cases hhead
    | quoted value => cases hhead
    | list items => rfl
  · exact walk_top hwalk

theorem walkItems_top (h : walkItems footprint identity items = .ok (walked, paths)) :
    walked.map top = items.map top := by
  induction items generalizing walked paths with
  | nil =>
      rw [(walkItems_nil.mp h).1]
  | cons item rest ih =>
      obtain ⟨first, own, others, elsewhere, hfirst, hrest, rfl, -⟩ := walkItems_cons.mp h
      rw [List.map_cons, List.map_cons, hfirst.top, ih hrest]

theorem walk_surface (h : walk footprint e = .ok (n, paths)) : surface n = surface e := by
  cases e with
  | atom a =>
      cases h
      rfl
  | quoted value =>
      cases h
      rfl
  | list items =>
      obtain ⟨current, identity, walked, others, -, -, hitems, rfl, -⟩ := walk_list.mp h
      rw [surface, surface, walkItems_top hitems]

theorem Walked.frameItem {item first : SExpr} (h : Walked footprint identity item first paths) :
    frameItem first = frameItem item := by
  unfold ManufacturingCandidate.frameItem
  rcases h with ⟨place, rfl, hhead, rfl, -⟩ | ⟨-, hwalk⟩
  · rw [if_pos hhead, if_pos (by rfl)]
  · have hsurface := walk_surface hwalk
    have hhead : first.head = item.head := by
      rw [← surface_head first, hsurface, surface_head]
    rw [hhead, hsurface]

theorem walkItems_frame (h : walkItems footprint identity items = .ok (walked, paths)) :
    frame (.list walked) = frame (.list items) := by
  induction items generalizing walked paths with
  | nil => rw [(walkItems_nil.mp h).1]
  | cons item rest ih =>
      obtain ⟨first, own, others, elsewhere, hfirst, hrest, rfl, -⟩ := walkItems_cons.mp h
      have hothers := SExpr.list.inj (ih hrest)
      rw [frame, frame, List.map_cons, List.map_cons, hfirst.frameItem, hothers]

end Walk

/-! ### Erasing -/

section Erasing

variable {footprint current identity : Option String} {inside isVolatile : Bool} {n : SExpr}
  {walked : List SExpr} {paths : List String}

theorem eraseItems_eq_map (inside isVolatile : Bool) (items : List SExpr) :
    eraseItems inside isVolatile items = items.map fun item =>
      if isVolatile = true ∧ item.head = some "uuid" then eraseUuid item else erase inside item := by
  induction items with
  | nil => rw [eraseItems, List.map_nil]
  | cons item rest ih => rw [eraseItems, List.map_cons, ih]

theorem top_erase (inside : Bool) (e : SExpr) : top (erase inside e) = top e := by
  cases e <;> simp [erase, top]

theorem top_eraseUuid (item : SExpr) : top (eraseUuid item) = top item := by
  unfold eraseUuid
  split <;> rfl

@[simp] theorem eraseUuid_head (item : SExpr) : (eraseUuid item).head = item.head := by
  unfold eraseUuid
  split
  · rename_i first _
    cases first <;> rfl
  · rfl

theorem erase_surface (inside : Bool) (e : SExpr) : surface (erase inside e) = surface e := by
  cases e with
  | atom a => rw [erase]; nofun
  | quoted value => rw [erase]; nofun
  | list items =>
      rw [erase, eraseItems_eq_map, surface, surface, List.map_map]
      congr 1
      refine List.map_congr_left ?_
      intro item _
      rw [Function.comp_apply]
      split
      · exact top_eraseUuid item
      · exact top_erase _ item

@[simp] theorem erase_head (inside : Bool) (e : SExpr) : (erase inside e).head = e.head := by
  rw [← surface_head, erase_surface, surface_head]

theorem eraseItems_frame (inside isVolatile : Bool) (items : List SExpr) :
    frame (.list (eraseItems inside isVolatile items)) = frame (.list items) := by
  rw [eraseItems_eq_map, frame, frame, List.map_map]
  congr 1
  refine List.map_congr_left ?_
  intro item _
  rw [Function.comp_apply]
  unfold frameItem
  split
  · rename_i h
    rw [eraseUuid_head, if_pos h.2, if_pos h.2]
  · rw [erase_head, erase_surface]

theorem eraseItems_below (inside : Bool) (items : List SExpr) :
    below (.list (eraseItems inside false items)) = below (.list items) := by
  rw [eraseItems_eq_map, below, below, List.map_map]
  congr 1
  refine List.map_congr_left ?_
  intro item _
  rw [Function.comp_apply, if_neg (by simp), erase_surface]

/-- What an expression stands in does not depend on what is below it. -/
theorem footprintOf_congr (hbelow : below e = below e') :
    footprintOf footprint e = footprintOf footprint e' := by
  unfold footprintOf
  rw [← below_head e, ← below_head e', ← scalarChild_below e, ← scalarChild_below e', hbelow]

theorem footprintOf_of_head (h : e.head ≠ some "footprint") :
    footprintOf footprint e = .ok footprint := by
  rw [footprintOf, if_neg h]

theorem footprintOf_isSome (h : footprintOf footprint e = .ok current) :
    current.isSome = (footprint.isSome || e.head == some "footprint") := by
  unfold footprintOf at h
  split at h
  · rename_i hhead
    simp only [bind_ok, require_ok, pure_ok, exists_const] at h
    obtain ⟨uuid, -, ⟨text, htext, -⟩, rfl⟩ := h
    rw [Option.mem_def] at htext
    simp [htext, hhead]
  · rename_i hhead
    cases h
    simp [hhead]

/-- The walk and the erasing take the same properties for volatile. -/
theorem volatileIdentity_isSome (h : volatileIdentity current e = .ok identity) :
    identity.isSome = (current.isSome && isHiddenVolatile e) := by
  cases identity with
  | none => rw [isHiddenVolatile_of_none h, Bool.and_false, Option.isSome_none]
  | some place =>
      obtain ⟨uuid, name, value, rfl, hhead, htexts, hname, -, hmode, -⟩ :=
        volatileIdentity_some.mp h
      simp [isHiddenVolatile, hhead, hmode, htexts, hname]

theorem uuid_pair {place : String} (h : volatileIdentity current (.list items) = .ok (some place))
    {item : SExpr} (hitem : item ∈ items) (hhead : item.head = some "uuid") :
    ∃ first identifier, item = .list [first, identifier] ∧ SpellsUuid identifier := by
  obtain ⟨uuid, name, value, -, hproperty, -, -, -, -, ⟨first, identifier, huuids, hspells⟩, -⟩ :=
    volatileIdentity_some.mp h
  have hmem : item ∈ uuidsOf (.list items) := by
    cases items with
    | nil => cases hitem
    | cons head rest =>
        rcases List.mem_cons.mp hitem with rfl | hrest
        · cases item with
          | atom a => cases hhead
          | quoted value => cases hhead
          | list inner => cases hproperty
        · exact List.mem_filter.mpr ⟨hrest, by simp [hhead]⟩
  rw [huuids, List.mem_singleton] at hmem
  exact ⟨first, identifier, hmem, hspells⟩

theorem placeholder_eq {place : String} {first identifier : SExpr}
    (hhead : (SExpr.list [first, identifier]).head = some "uuid") :
    placeholder place = .list [first, .quoted ("<volatile:" ++ place ++ ">")] := by
  cases first with
  | atom a =>
      have ha : a = word "uuid" := by
        cases a
        simpa [SExpr.head, word] using hhead
      rw [placeholder, node, ha]
  | quoted value => cases hhead
  | list items => cases hhead

mutual

/-- **Erasing forgets what the walk wrote.** -/
theorem erase_walk : ∀ (e n : SExpr) (footprint : Option String) (paths : List String),
    walk footprint e = .ok (n, paths) → erase footprint.isSome n = erase footprint.isSome e
  | .atom a, n, footprint, paths, h => by
      cases h
      rfl
  | .quoted value, n, footprint, paths, h => by
      cases h
      rfl
  | .list items, n, footprint, paths, h => by
      obtain ⟨current, identity, walked, others, hcurrent, hidentity, hitems, rfl, -⟩ :=
        walk_list.mp h
      have hframe := walkItems_frame hitems
      have hhead : (SExpr.list walked).head = (SExpr.list items).head := by
        rw [← frame_head, hframe, frame_head]
      have hvolatile : isHiddenVolatile (.list walked) = isHiddenVolatile (.list items) := by
        rw [← isHiddenVolatile_frame, hframe, isHiddenVolatile_frame]
      rw [erase, erase, hhead, hvolatile, ← footprintOf_isSome hcurrent,
        ← volatileIdentity_isSome hidentity]
      refine congrArg SExpr.list (eraseItems_walk items walked current identity others hitems ?_)
      intro item hitem huuid place hplace
      rw [hplace] at hidentity
      obtain ⟨first, identifier, hpair, -⟩ := uuid_pair hidentity hitem huuid
      exact ⟨first, identifier, hpair⟩

theorem eraseItems_walk : ∀ (items walked : List SExpr) (footprint identity : Option String)
    (paths : List String), walkItems footprint identity items = .ok (walked, paths) →
    (∀ item ∈ items, item.head = some "uuid" → ∀ place, identity = some place →
      ∃ first identifier, item = .list [first, identifier]) →
    eraseItems footprint.isSome identity.isSome walked =
      eraseItems footprint.isSome identity.isSome items
  | [], walked, footprint, identity, paths, h, _ => by
      rw [(walkItems_nil.mp h).1]
  | item :: rest, walked, footprint, identity, paths, h, hpairs => by
      obtain ⟨first, own, others, elsewhere, hfirst, hrest, rfl, -⟩ := walkItems_cons.mp h
      have hothers := eraseItems_walk rest others footprint identity elsewhere hrest
        (fun item hitem => hpairs item (List.mem_cons_of_mem _ hitem))
      rw [eraseItems, eraseItems, hothers]
      congr 1
      rcases hfirst with ⟨place, hplace, hhead, rfl, -⟩ | ⟨hother, hwalk⟩
      · obtain ⟨first, identifier, rfl⟩ := hpairs item List.mem_cons_self hhead place hplace
        rw [if_pos ⟨by rw [hplace]; rfl, rfl⟩, if_pos ⟨by rw [hplace]; rfl, hhead⟩,
          placeholder_eq hhead]
        rfl
      · have hsame : first.head = item.head := by
          rw [← surface_head, walk_surface hwalk, surface_head]
        have hplain : ¬ (identity.isSome = true ∧ item.head = some "uuid") := by
          rintro ⟨hsome, hhead⟩
          rcases hother with rfl | hother
          · cases hsome
          · exact hother hhead
        rw [hsame, if_neg hplain, if_neg hplain]
        exact erase_walk item first footprint own hwalk

end

theorem spellsUuid_any : SpellsUuid (.quoted anyUuid) := ⟨anyUuid, rfl, by decide⟩

theorem hasUuid_erased {place : String}
    (h : volatileIdentity current (.list items) = .ok (some place)) :
    HasUuid (.list (eraseItems inside true items)) := by
  obtain ⟨uuid, name, value, -, -, -, -, -, -, ⟨first, identifier, huuids, -⟩, -⟩ :=
    volatileIdentity_some.mp h
  refine ⟨first, .quoted anyUuid, ?_, spellsUuid_any⟩
  have herased : uuidsOf (.list (eraseItems inside true items)) =
      (uuidsOf (.list items)).map eraseUuid := by
    unfold uuidsOf
    rw [eraseItems_eq_map]
    show List.filter _ (List.map _ items).tail = List.map _ (List.filter _ items.tail)
    rw [← List.map_tail, List.filter_map]
    have hhead : ((fun item : SExpr => item.head == some "uuid") ∘ fun item =>
        if true = true ∧ item.head = some "uuid" then eraseUuid item else erase inside item) =
          fun item => item.head == some "uuid" := by
      funext item
      rw [Function.comp_apply]
      split
      · rw [eraseUuid_head]
      · rw [erase_head]
    rw [hhead]
    refine List.map_congr_left ?_
    intro item hitem
    have huuid := (List.mem_filter.mp hitem).2
    rw [beq_iff_eq] at huuid
    rw [if_pos ⟨rfl, huuid⟩]
  rw [herased, huuids]
  rfl

mutual

/-- **The walk does not read what is erased.** -/
theorem walk_erase : ∀ (e n : SExpr) (footprint : Option String) (paths : List String),
    walk footprint e = .ok (n, paths) → walk footprint (erase footprint.isSome e) = .ok (n, paths)
  | .atom a, n, footprint, paths, h => by
      rw [erase]
      · exact h
      · nofun
  | .quoted value, n, footprint, paths, h => by
      rw [erase]
      · exact h
      · nofun
  | .list items, n, footprint, paths, h => by
      obtain ⟨current, identity, walked, others, hcurrent, hidentity, hitems, rfl, rfl⟩ :=
        walk_list.mp h
      rw [erase, ← footprintOf_isSome hcurrent, ← volatileIdentity_isSome hidentity, walk_list]
      have hframe := eraseItems_frame current.isSome identity.isSome items
      refine ⟨current, identity, walked, others, ?_, ?_,
        walkItems_erase items walked current identity others hitems, rfl, rfl⟩
      · cases identity with
        | none => exact (footprintOf_congr (eraseItems_below _ items)).trans hcurrent
        | some place =>
            obtain ⟨uuid, name, value, -, hproperty, -⟩ := volatileIdentity_some.mp hidentity
            have hhead : (SExpr.list items).head ≠ some "footprint" := by
              rw [hproperty]
              decide
            rw [footprintOf_of_head hhead] at hcurrent
            rw [← frame_head, ← hframe, frame_head] at hhead
            rw [footprintOf_of_head hhead, hcurrent]
      · cases identity with
        | none => exact (volatileIdentity_none_congr hframe).mpr hidentity
        | some place =>
            exact volatileIdentity_some_congr hframe.symm (hasUuid_erased hidentity) hidentity

theorem walkItems_erase : ∀ (items walked : List SExpr) (footprint identity : Option String)
    (paths : List String), walkItems footprint identity items = .ok (walked, paths) →
    walkItems footprint identity (eraseItems footprint.isSome identity.isSome items) =
      .ok (walked, paths)
  | [], walked, footprint, identity, paths, h => by
      rw [eraseItems]
      exact h
  | item :: rest, walked, footprint, identity, paths, h => by
      obtain ⟨first, own, others, elsewhere, hfirst, hrest, rfl, rfl⟩ := walkItems_cons.mp h
      rw [eraseItems, walkItems_cons]
      refine ⟨first, own, others, elsewhere, ?_,
        walkItems_erase rest others footprint identity elsewhere hrest, rfl, rfl⟩
      rcases hfirst with ⟨place, rfl, hhead, rfl, rfl⟩ | ⟨hother, hwalk⟩
      · refine Or.inl ⟨place, rfl, ?_, rfl, rfl⟩
        rw [if_pos ⟨rfl, hhead⟩, eraseUuid_head, hhead]
      · have hplain : ¬ (identity.isSome = true ∧ item.head = some "uuid") := by
          rintro ⟨hsome, hhead⟩
          rcases hother with rfl | hother
          · cases hsome
          · exact hother hhead
        rw [if_neg hplain]
        refine Or.inr ⟨?_, walk_erase item first footprint own hwalk⟩
        rw [erase_head]
        exact hother

end

/-- **Two boards are normalized to one expression exactly when they are one once erased.** -/
theorem normalized_eq_iff {root root' normalized normalized' : SExpr} {paths paths' : List String}
    (h : walk none root = .ok (normalized, paths))
    (h' : walk none root' = .ok (normalized', paths')) :
    normalized = normalized' ↔ erase false root = erase false root' := by
  constructor
  · rintro rfl
    exact (erase_walk root normalized none paths h).symm.trans
      (erase_walk root' normalized none paths' h')
  · intro herased
    have hwalk := walk_erase root normalized none paths h
    rw [show erase (none : Option String).isSome root = erase false root' from herased] at hwalk
    have hsame := hwalk.symm.trans (walk_erase root' normalized' none paths' h')
    exact (Prod.mk.inj (Except.ok.inj hsame)).1

/-! ### The text of a normalized board -/

theorem quotedFits_of_plain {limits : ParseLimits} {text : List Char} {before : Nat}
    (hplain : ∀ c ∈ text, 32 ≤ c.toNat)
    (hlength : before + text.length ≤ limits.maximumAtomCharacters) :
    QuotedFits limits before text := by
  induction text generalizing before with
  | nil => rw [QuotedFits]; trivial
  | cons c rest ih =>
      rw [List.length_cons] at hlength
      rw [QuotedFits]
      exact ⟨Or.inr ⟨hplain c List.mem_cons_self, by omega⟩,
        ih (fun c hc => hplain c (List.mem_cons_of_mem _ hc)) (by omega)⟩

/-- A UUID has thirty-six characters, all printable. -/
theorem isUuid_plain {text : String} (h : isUuid text = true) :
    text.toList.length = 36 ∧ ∀ c ∈ text.toList, 32 ≤ c.toNat := by
  have hclasses : ∀ f ∈ uuidClasses, ∀ c : Char, f c = true → 32 ≤ c.toNat := by
    intro f hf c hc
    have hlower : ∀ d : Char, 32 ≤ d.toNat → d ≤ c → 32 ≤ c.toNat := by
      intro d hd hle
      exact le_trans hd (UInt32.le_iff_toNat_le.mp (Char.le_def.mp hle))
    have hhex : Text.isLowerHex c = true → 32 ≤ c.toNat := by
      intro h
      simp only [Text.isLowerHex, Bool.or_eq_true, Bool.and_eq_true, decide_eq_true_eq] at h
      rcases h with h | h
      · exact hlower '0' (by decide) h.1
      · exact hlower 'a' (by decide) h.1
    have hdash : (c == '-') = true → 32 ≤ c.toNat := by
      intro h
      rw [beq_iff_eq] at h
      rw [h]
      decide
    simp only [uuidClasses, List.mem_append, List.mem_replicate, List.mem_cons, List.not_mem_nil,
      or_false, or_assoc] at hf
    rcases hf with ⟨-, rfl⟩ | rfl | ⟨-, rfl⟩ | rfl | rfl | ⟨-, rfl⟩ | rfl | rfl | ⟨-, rfl⟩ | rfl |
      ⟨-, rfl⟩
    · exact hhex hc
    · exact hdash hc
    · exact hhex hc
    · exact hdash hc
    · rw [Bool.and_eq_true, decide_eq_true_eq] at hc
      exact hlower '1' (by decide) hc.1
    · exact hhex hc
    · exact hdash hc
    · rw [decide_eq_true_eq] at hc
      rcases hc with rfl | rfl | rfl | rfl <;> decide
    · exact hhex hc
    · exact hdash hc
    · exact hhex hc
  unfold isUuid at h
  rw [Bool.and_eq_true, beq_iff_eq, List.all_eq_true] at h
  obtain ⟨hlength, hall⟩ := h
  refine ⟨hlength.trans (by decide), ?_⟩
  intro c hc
  obtain ⟨index, hindex, rfl⟩ := List.getElem_of_mem hc
  have hclass : index < uuidClasses.length := by omega
  have hzip : (uuidClasses[index], text.toList[index]) ∈ uuidClasses.zip text.toList := by
    rw [← List.getElem_zip (h := by simp; omega)]
    exact List.getElem_mem _
  exact hclasses _ (List.getElem_mem _) _ (hall _ hzip)

theorem footprintOf_isUuid (hfootprint : ∀ uuid ∈ footprint, isUuid uuid = true)
    (h : footprintOf footprint e = .ok current) : ∀ uuid ∈ current, isUuid uuid = true := by
  unfold footprintOf at h
  split at h
  · simp only [bind_ok, require_ok, pure_ok, exists_const] at h
    obtain ⟨found, -, ⟨text, htext, hvalid⟩, rfl⟩ := h
    intro uuid huuid
    cases Option.mem_unique htext huuid
    exact hvalid
  · cases h
    exact hfootprint

theorem placeholder_fits {limits : ParseLimits} (hchars : 100 ≤ limits.maximumAtomCharacters)
    {place : String} (hfootprint : ∀ uuid ∈ current, isUuid uuid = true)
    (h : volatileIdentity current e = .ok (some place)) :
    (placeholder place).AtomsFit limits := by
  obtain ⟨uuid, name, value, rfl, -, -, hname, -, -, -, rfl⟩ := volatileIdentity_some.mp h
  obtain ⟨hlength, hplain⟩ := isUuid_plain (hfootprint uuid rfl)
  have hnames : name.toList.length ≤ 11 ∧ ∀ c ∈ name.toList, 32 ≤ c.toNat := by
    simp only [volatileProperties, List.mem_cons, List.not_mem_nil, or_false] at hname
    rcases hname with rfl | rfl
    · simp
    · simp
  rw [placeholder, node, SExpr.AtomsFit, SExpr.AtomsFitOf, SExpr.AtomsFitOf, SExpr.AtomsFit,
    SExpr.AtomsFit, SExpr.AtomsFitOf]
  refine ⟨le_trans (by decide) hchars, quotedFits_of_plain ?_ ?_, trivial⟩
  · intro c hc
    simp only [String.toList_append, List.mem_append] at hc
    rcases hc with (hc | (hc | hc) | hc) | hc
    · revert c
      simp
    · exact hplain c hc
    · revert c
      simp
    · exact hnames.2 c hc
    · revert c
      simp
  · simp only [String.toList_append, List.length_append, hlength]
    have hlabel : "<volatile:".toList.length = 10 := by decide
    have hslash : "/".toList.length = 1 := by decide
    have hend : ">".toList.length = 1 := by decide
    omega

mutual

/-- A normalized expression is as deep and as long as it was. -/
theorem walk_fits {limits : ParseLimits} (hchars : 100 ≤ limits.maximumAtomCharacters) :
    ∀ (e n : SExpr) (footprint : Option String) (paths : List String),
      (∀ uuid ∈ footprint, isUuid uuid = true) → walk footprint e = .ok (n, paths) →
      n.depth = e.depth ∧ n.tokens = e.tokens ∧ (e.AtomsFit limits → n.AtomsFit limits)
  | .atom a, n, footprint, paths, _, h => by
      cases h
      exact ⟨rfl, rfl, id⟩
  | .quoted value, n, footprint, paths, _, h => by
      cases h
      exact ⟨rfl, rfl, id⟩
  | .list items, n, footprint, paths, hfootprint, h => by
      obtain ⟨current, identity, walked, others, hcurrent, hidentity, hitems, rfl, -⟩ :=
        walk_list.mp h
      have huuid := footprintOf_isUuid hfootprint hcurrent
      obtain ⟨hdepth, htokens, hatoms⟩ := walkItems_fits hchars items walked current identity others
        huuid (fun place hplace => placeholder_fits hchars huuid (hplace ▸ hidentity))
        (fun place hplace item hitem hhead => uuid_pair (hplace ▸ hidentity) hitem hhead) hitems
      rw [SExpr.depth, SExpr.depth, SExpr.tokens, SExpr.tokens, SExpr.AtomsFit, SExpr.AtomsFit,
        hdepth, htokens]
      exact ⟨rfl, rfl, hatoms⟩

theorem walkItems_fits {limits : ParseLimits} (hchars : 100 ≤ limits.maximumAtomCharacters) :
    ∀ (items walked : List SExpr) (footprint identity : Option String) (paths : List String),
      (∀ uuid ∈ footprint, isUuid uuid = true) →
      (∀ place, identity = some place → (placeholder place).AtomsFit limits) →
      (∀ place, identity = some place → ∀ item ∈ items, item.head = some "uuid" →
        ∃ first identifier, item = .list [first, identifier] ∧ SpellsUuid identifier) →
      walkItems footprint identity items = .ok (walked, paths) →
      SExpr.depthOf walked = SExpr.depthOf items ∧ SExpr.tokensOf walked = SExpr.tokensOf items ∧
        (SExpr.AtomsFitOf limits items → SExpr.AtomsFitOf limits walked)
  | [], walked, footprint, identity, paths, _, _, _, h => by
      rw [(walkItems_nil.mp h).1]
      exact ⟨rfl, rfl, id⟩
  | item :: rest, walked, footprint, identity, paths, hfootprint, hplaceholder, hpairs, h => by
      obtain ⟨first, own, others, elsewhere, hfirst, hrest, rfl, -⟩ := walkItems_cons.mp h
      obtain ⟨hdepth, htokens, hatoms⟩ := walkItems_fits hchars rest others footprint identity
        elsewhere hfootprint hplaceholder
        (fun place hplace item hitem => hpairs place hplace item (List.mem_cons_of_mem _ hitem)) hrest
      have hone : first.depth = item.depth ∧ first.tokens = item.tokens ∧
          (item.AtomsFit limits → first.AtomsFit limits) := by
        rcases hfirst with ⟨place, hplace, hhead, rfl, -⟩ | ⟨-, hwalk⟩
        · obtain ⟨head, identifier, rfl, text, htext, -⟩ :=
            hpairs place hplace item List.mem_cons_self hhead
          have hfits := hplaceholder place hplace
          rw [placeholder_eq hhead] at hfits ⊢
          cases identifier with
          | list items => cases htext
          | atom a => exact ⟨rfl, rfl, fun _ => hfits⟩
          | quoted value => exact ⟨rfl, rfl, fun _ => hfits⟩
        · exact walk_fits hchars item first footprint own hfootprint hwalk
      rw [SExpr.depthOf, SExpr.depthOf, SExpr.tokensOf, SExpr.tokensOf, SExpr.AtomsFitOf,
        SExpr.AtomsFitOf, hdepth, htokens, hone.1, hone.2.1]
      exact ⟨rfl, rfl, fun hfits => ⟨hone.2.2 hfits.1, hatoms hfits.2⟩⟩

end

theorem normalized_fits {root normalized : SExpr} {limits : ParseLimits}
    (hchars : 100 ≤ limits.maximumAtomCharacters) (hfits : root.Fits limits)
    (h : walk none root = .ok (normalized, paths)) : normalized.Fits limits := by
  obtain ⟨hdepth, htokens, hatoms⟩ :=
    walk_fits hchars root normalized none paths (by nofun) h
  exact ⟨hdepth ▸ hfits.depth_le, htokens ▸ hfits.tokens_le, hatoms hfits.atoms⟩

end Erasing

section Evidence

variable [Hashing] [DecimalDigits] {root root' : SExpr} {payload payload' : ByteArray}
  {evidence evidence' : FilledBoardSemanticEvidence}

theorem analyzed_walk (hroot : parse defaultLimits payload = .ok root)
    (h : analyzeFilledBoard payload = .ok evidence) :
    ∃ normalized paths, walk none root = .ok (normalized, paths) ∧
      evidence.normalizedSemanticSha256 = semanticSha256 normalized := by
  unfold analyzeFilledBoard analyzeRoot normalizeVolatilePropertyUuids at h
  simp only [bind_ok, require_ok, exists_const, hroot, Except.mapError, Except.ok.injEq,
    exists_eq_left', pure_ok, Prod.exists, Prod.mk.injEq] at h
  obtain ⟨-, normalized, paths, ⟨normalized', paths', hwalk, -, rfl, -⟩, _, _, -, -, -, -, -, rfl⟩ :=
    h
  exact ⟨_, paths', hwalk, rfl⟩

/-- **The semantic digests of two boards agree exactly when the boards do once erased.** -/
theorem semanticSha256_eq_iff (hfree : Hashing.CollisionFree)
    (hroot : parse defaultLimits payload = .ok root)
    (hroot' : parse defaultLimits payload' = .ok root')
    (h : analyzeFilledBoard payload = .ok evidence)
    (h' : analyzeFilledBoard payload' = .ok evidence') :
    evidence.normalizedSemanticSha256 = evidence'.normalizedSemanticSha256 ↔
      erase false root = erase false root' := by
  obtain ⟨normalized, paths, hwalk, hdigest⟩ := analyzed_walk hroot h
  obtain ⟨normalized', paths', hwalk', hdigest'⟩ := analyzed_walk hroot' h'
  rw [hdigest, hdigest', ← normalized_eq_iff hwalk hwalk']
  constructor
  · intro hsame
    have htexts := Json.str.inj (Hashing.inDomain_inj hfree hsame)
    exact canonicalText_inj (normalized_fits (by decide) (parse_fits hroot) hwalk)
      (normalized_fits (by decide) (parse_fits hroot') hwalk') (String.ofList_injective htexts)
  · rintro rfl
    rfl

end Evidence

end Evleda.ManufacturingCandidate
