/-
Reading a JSON text.

`loads` is `json.loads` with a hook that refuses an object with a key twice, for
texts without floating-point numbers.  A lone surrogate is not a character of a text
here, so an escape that denotes one is refused; the program refuses it one step later.

`canonicalLoads` reads a text and accepts the value only if the writer gives back the
same text.  The result of this file is that the text of a canonical value reads as
that value, and whatever is accepted is canonical and has the accepted text.  The
recursion is on fuel, and the length of the text is enough of it.
-/
import Evleda.Lib.Json
import Mathlib.Tactic.IntervalCases

namespace Evleda.Json

/-! ### The reader -/

/-- White space between tokens. -/
def isBlank (c : Char) : Bool := c == ' ' || c == '\t' || c == '\n' || c == '\r'

def skip (cs : List Char) : List Char := cs.dropWhile isBlank

/-- The value of a hexadecimal digit. -/
def hexValue (c : Char) : Option Nat :=
  if '0' ≤ c ∧ c ≤ '9' then some (c.toNat - 48)
  else if 'a' ≤ c ∧ c ≤ 'f' then some (c.toNat - 87)
  else if 'A' ≤ c ∧ c ≤ 'F' then some (c.toNat - 55)
  else none

/-- Four hexadecimal digits. -/
def readHex : List Char → Option (Nat × List Char)
  | a :: b :: c :: d :: rest => do
      let a ← hexValue a
      let b ← hexValue b
      let c ← hexValue c
      let d ← hexValue d
      return (4096 * a + 256 * b + 16 * c + d, rest)
  | _ => none

/-- The character of an escape `\u`, from two escapes for a surrogate pair. -/
def readUnicode (cs : List Char) : Option (Char × List Char) := do
  let (high, rest) ← readHex cs
  if 0xD800 ≤ high ∧ high < 0xDC00 then
    match rest with
    | '\\' :: 'u' :: rest => do
        let (low, rest) ← readHex rest
        if 0xDC00 ≤ low ∧ low < 0xE000 then
          return (Char.ofNat (0x10000 + (high - 0xD800) * 0x400 + (low - 0xDC00)), rest)
        else none
    | _ => none
  else if 0xDC00 ≤ high ∧ high < 0xE000 then none
  else return (Char.ofNat high, rest)

/-- One character of a string, before its closing quote. -/
def readChar : List Char → Option (Char × List Char)
  | '\\' :: c :: rest =>
      if c = '"' then some ('"', rest)
      else if c = '\\' then some ('\\', rest)
      else if c = '/' then some ('/', rest)
      else if c = 'n' then some ('\n', rest)
      else if c = 'r' then some ('\r', rest)
      else if c = 't' then some ('\t', rest)
      else if c = 'b' then some (Char.ofNat 8, rest)
      else if c = 'f' then some (Char.ofNat 12, rest)
      else if c = 'u' then readUnicode rest
      else none
  | c :: rest => if c = '\\' ∨ c = '"' ∨ c.toNat < 32 then none else some (c, rest)
  | [] => none

/-- The characters up to the closing quote. -/
def readChars : Nat → List Char → Option (List Char × List Char)
  | 0, _ => none
  | fuel + 1, cs =>
      match cs with
      | '"' :: rest => some ([], rest)
      | cs => do
          let (c, rest) ← readChar cs
          let (chars, rest) ← readChars fuel rest
          return (c :: chars, rest)

/-- A string after its opening quote. -/
def readString (fuel : Nat) (cs : List Char) : Option (String × List Char) := do
  let (chars, rest) ← readChars fuel cs
  return (String.ofList chars, rest)

/-- A natural number without leading zeros. -/
def readNat : List Char → Option (Nat × List Char)
  | [] => none
  | c :: rest =>
      if c = '0' then some (0, rest)
      else if c.isDigit then
        some (Nat.ofDigitChars 10 ((c :: rest).takeWhile Char.isDigit) 0,
          (c :: rest).dropWhile Char.isDigit)
      else none

def readInt : List Char → Option (Int × List Char)
  | '-' :: rest => (readNat rest).map fun (n, rest) => (-(n : Int), rest)
  | cs => (readNat cs).map fun (n, rest) => ((n : Int), rest)

mutual

/-- The value at the beginning of a text, and what follows it. -/
def readValue : Nat → List Char → Option (Json × List Char)
  | 0, _ => none
  | fuel + 1, cs =>
      match cs with
      | 'n' :: 'u' :: 'l' :: 'l' :: rest => some (.null, rest)
      | 't' :: 'r' :: 'u' :: 'e' :: rest => some (.bool true, rest)
      | 'f' :: 'a' :: 'l' :: 's' :: 'e' :: rest => some (.bool false, rest)
      | '"' :: rest => (readString fuel rest).map fun (s, rest) => (.str s, rest)
      | '[' :: rest =>
          match skip rest with
          | ']' :: rest => some (.arr [], rest)
          | rest => (readItems fuel rest).map fun (items, rest) => (.arr items, rest)
      | '{' :: rest =>
          match skip rest with
          | '}' :: rest => some (.obj [], rest)
          | rest => do
              let (members, rest) ← readMembers fuel rest
              -- the hook on objects refuses a key given twice
              if (members.map Prod.fst).Nodup then return (.obj members, rest) else none
      | cs => (readInt cs).map fun (n, rest) => (.int n, rest)

/-- The elements of an array up to the closing bracket, at least one. -/
def readItems : Nat → List Char → Option (List Json × List Char)
  | 0, _ => none
  | fuel + 1, cs => do
      let (item, rest) ← readValue fuel cs
      match skip rest with
      | ']' :: rest => return ([item], rest)
      | ',' :: rest => do
          let (items, rest) ← readItems fuel (skip rest)
          return (item :: items, rest)
      | _ => none

/-- The members of an object up to the closing brace, at least one. -/
def readMembers : Nat → List Char → Option (List (String × Json) × List Char)
  | 0, _ => none
  | fuel + 1, cs =>
      match cs with
      | '"' :: cs => do
          let (key, rest) ← readString fuel cs
          match skip rest with
          | ':' :: rest => do
              let (value, rest) ← readValue fuel (skip rest)
              match skip rest with
              | '}' :: rest => return ([(key, value)], rest)
              | ',' :: rest => do
                  let (members, rest) ← readMembers fuel (skip rest)
                  return ((key, value) :: members, rest)
              | _ => none
          | _ => none
      | _ => none

end

/-- `json.loads` on a text without floating-point numbers. -/
def loads (text : String) : Option Json := do
  let (value, rest) ← readValue (text.toList.length + 1) (skip text.toList)
  if skip rest = [] then return value else none

instance : DecidableEq Json := fun a b =>
  decidable_of_iff (a.render = b.render) ⟨render_injective, fun h => h ▸ rfl⟩

/-- The canonical text of a value. -/
def dumps (value : Json) : String := String.ofList value.canonical.render

/-- Read a text that is the canonical one of its value. -/
def canonicalLoads (text : String) : Option Json := do
  let value ← loads text
  if value.dumps = text then return value else none

/-! ### Canonical values -/

mutual

/-- No object has a key twice. -/
def Unique : Json → Prop
  | .arr items => UniqueItems items
  | .obj members => (members.map Prod.fst).Nodup ∧ UniqueMembers members
  | _ => True

def UniqueItems : List Json → Prop
  | [] => True
  | item :: rest => Unique item ∧ UniqueItems rest

def UniqueMembers : List (String × Json) → Prop
  | [] => True
  | (_, value) :: rest => Unique value ∧ UniqueMembers rest

end

/-- The members of every object are in the order of their keys, no two under one key. -/
def Canonical (value : Json) : Prop := value.canonical = value ∧ value.Unique

theorem uniqueItems_iff {items : List Json} : UniqueItems items ↔ ∀ item ∈ items, Unique item := by
  induction items with
  | nil => simp [UniqueItems]
  | cons item rest ih => simp [UniqueItems, ih]

theorem uniqueMembers_iff {members : List (String × Json)} :
    UniqueMembers members ↔ ∀ m ∈ members, Unique m.2 := by
  induction members with
  | nil => simp [UniqueMembers]
  | cons m rest ih =>
      obtain ⟨key, value⟩ := m
      simp [UniqueMembers, ih]

theorem canonicalItems_eq (items : List Json) : canonicalItems items = items.map canonical := by
  induction items with
  | nil => rfl
  | cons item rest ih => rw [canonicalItems, ih, List.map_cons]

theorem canonicalMembers_eq (members : List (String × Json)) :
    canonicalMembers members = members.map (fun m => (m.1, m.2.canonical)) := by
  induction members with
  | nil => rfl
  | cons m rest ih =>
      obtain ⟨key, value⟩ := m
      rw [canonicalMembers, ih, List.map_cons]

theorem canonical_null : Canonical .null := ⟨rfl, trivial⟩

theorem canonical_bool (b : Bool) : Canonical (.bool b) := ⟨rfl, trivial⟩

theorem canonical_int (n : Int) : Canonical (.int n) := ⟨rfl, trivial⟩

theorem canonical_str (s : String) : Canonical (.str s) := ⟨rfl, trivial⟩

theorem canonical_arr {items : List Json} :
    Canonical (.arr items) ↔ ∀ item ∈ items, Canonical item := by
  unfold Canonical
  rw [canonical, canonicalItems_eq, Unique, uniqueItems_iff, Json.arr.injEq]
  constructor
  · rintro ⟨hmap, hunique⟩ item hitem
    exact ⟨List.map_inj_left.mp (hmap.trans (List.map_id' items).symm) item hitem,
      hunique item hitem⟩
  · intro h
    refine ⟨?_, fun item hitem => (h item hitem).2⟩
    exact (List.map_congr_left fun item hitem => (h item hitem).1).trans (List.map_id' items)

/-- Members in the order of their keys. -/
def SortedKeys (members : List (String × Json)) : Prop :=
  members.Pairwise (fun a b => a.1 ≤ b.1)

theorem insertionSort_sortedKeys (members : List (String × Json)) :
    SortedKeys (members.insertionSort (fun a b => a.1 ≤ b.1)) := by
  have : IsTrans (String × Json) (fun a b => a.1 ≤ b.1) := ⟨fun _ _ _ h h' => le_trans h h'⟩
  have : Std.Total (fun a b : String × Json => a.1 ≤ b.1) := ⟨fun a b => le_total a.1 b.1⟩
  exact List.pairwise_insertionSort _ members

/-- Two lists of members in the order of distinct keys, one a rearrangement of the other, are the
same list. -/
theorem eq_of_perm_sortedKeys {members members' : List (String × Json)}
    (hnodup : (members.map Prod.fst).Nodup) (hsorted : SortedKeys members)
    (hsorted' : SortedKeys members') (hperm : members.Perm members') : members = members' := by
  refine hperm.eq_of_pairwise ?_ hsorted hsorted'
  intro a b ha hb hab hba
  have hkey : a.1 = b.1 := le_antisymm hab hba
  exact List.inj_on_of_nodup_map hnodup ha (hperm.symm.subset hb) hkey

theorem canonical_object {members : List (String × Json)} (hnodup : (members.map Prod.fst).Nodup)
    (hvalues : ∀ m ∈ members, Canonical m.2) : Canonical (object members) := by
  have hperm := List.perm_insertionSort (fun a b : String × Json => a.1 ≤ b.1) members
  have hself : canonicalMembers (members.insertionSort (fun a b => a.1 ≤ b.1)) =
      members.insertionSort (fun a b => a.1 ≤ b.1) := by
    rw [canonicalMembers_eq]
    refine (List.map_congr_left ?_).trans (List.map_id _)
    intro m hm
    exact Prod.ext rfl (hvalues m (hperm.subset hm)).1
  refine ⟨?_, ?_⟩
  · rw [object, canonical, hself, object]
    refine congrArg Json.obj ?_
    have hnodup' : ((members.insertionSort (fun a b => a.1 ≤ b.1)).map Prod.fst).Nodup :=
      (hperm.map Prod.fst).nodup_iff.mpr hnodup
    refine (eq_of_perm_sortedKeys hnodup' (insertionSort_sortedKeys members)
      (insertionSort_sortedKeys _) ?_).symm
    exact (List.perm_insertionSort _ _).symm
  · rw [object, Unique, uniqueMembers_iff]
    exact ⟨(hperm.map Prod.fst).nodup_iff.mpr hnodup, fun m hm => (hvalues m (hperm.subset hm)).2⟩

theorem canonical_obj {members : List (String × Json)} (h : Canonical (.obj members)) :
    (members.map Prod.fst).Nodup ∧ SortedKeys members ∧ ∀ m ∈ members, Canonical m.2 := by
  obtain ⟨hself, hunique⟩ := h
  rw [Unique, uniqueMembers_iff] at hunique
  rw [canonical, object, Json.obj.injEq, canonicalMembers_eq] at hself
  have hsorted := insertionSort_sortedKeys (members.map (fun m => (m.1, m.2.canonical)))
  rw [hself] at hsorted
  refine ⟨hunique.1, hsorted, ?_⟩
  intro m hm
  refine ⟨?_, hunique.2 m hm⟩
  -- the canonical member is a member too, under the same key
  have hcanonical : (m.1, m.2.canonical) ∈ members := by
    rw [← hself, List.mem_insertionSort]
    exact List.mem_map_of_mem hm
  have heq := List.inj_on_of_nodup_map hunique.1 hcanonical hm rfl
  exact congrArg Prod.snd heq

theorem get?_eq_some_iff {members : List (String × Json)} (hnodup : (members.map Prod.fst).Nodup)
    {key : String} {value : Json} : get? members key = some value ↔ (key, value) ∈ members := by
  unfold get?
  rw [Option.map_eq_some_iff]
  constructor
  · rintro ⟨m, hfind, rfl⟩
    have hkey : m.1 = key := by simpa using List.find?_some hfind
    subst hkey
    exact List.mem_of_find?_eq_some hfind
  · intro hmem
    have hfound : (members.find? (fun member => member.1 == key)).isSome := by
      rw [List.find?_isSome]
      exact ⟨(key, value), hmem, by simp⟩
    obtain ⟨m, hm⟩ := Option.isSome_iff_exists.mp hfound
    refine ⟨m, hm, ?_⟩
    have hkey : m.1 = key := by simpa using List.find?_some hm
    have heq := List.inj_on_of_nodup_map hnodup (List.mem_of_find?_eq_some hm) hmem hkey
    rw [heq]

theorem object_members {fields : List (String × Json)} (hnodup : (fields.map Prod.fst).Nodup) :
    ∃ members, object fields = .obj members ∧ (members.map Prod.fst).Perm (fields.map Prod.fst) ∧
      ∀ key value, (key, value) ∈ fields → get? members key = some value := by
  have hperm := List.perm_insertionSort (fun a b : String × Json => a.1 ≤ b.1) fields
  refine ⟨_, rfl, hperm.map _, ?_⟩
  intro key value hmem
  have hkeys := (hperm.map Prod.fst).nodup_iff.mpr hnodup
  exact (get?_eq_some_iff hkeys).mpr (hperm.symm.subset hmem)

theorem obj_eq_object_iff {members fields : List (String × Json)}
    (hcanonical : Canonical (.obj members)) (hnodup : (fields.map Prod.fst).Nodup) :
    Json.obj members = object fields ↔
      (∀ key, key ∈ members.map Prod.fst ↔ key ∈ fields.map Prod.fst) ∧
        ∀ field ∈ fields, get? members field.1 = some field.2 := by
  obtain ⟨hkeys, hsorted, -⟩ := canonical_obj hcanonical
  have hperm := List.perm_insertionSort (fun a b : String × Json => a.1 ≤ b.1) fields
  constructor
  · intro h
    rw [Json.obj.inj h]
    rw [Json.obj.inj h] at hkeys
    refine ⟨fun key => (hperm.map Prod.fst).mem_iff, ?_⟩
    intro field hfield
    exact (get?_eq_some_iff hkeys).mpr (hperm.symm.subset hfield)
  · rintro ⟨hsame, hget⟩
    have hmem : ∀ m, m ∈ members ↔ m ∈ fields := by
      intro m
      constructor
      · intro hm
        obtain ⟨field, hfield, hkey⟩ :=
          List.mem_map.mp ((hsame m.1).mp (List.mem_map_of_mem hm))
        have hfield' := (get?_eq_some_iff hkeys).mp (hget field hfield)
        have heq := List.inj_on_of_nodup_map hkeys hfield' hm hkey
        rw [← heq]
        exact hfield
      · intro hm
        exact (get?_eq_some_iff hkeys).mp (hget m hm)
    have hsame : members.Perm fields :=
      (List.perm_ext_iff_of_nodup hkeys.of_map hnodup.of_map).mpr hmem
    exact congrArg Json.obj (eq_of_perm_sortedKeys hkeys hsorted
      (insertionSort_sortedKeys fields) (hsame.trans hperm.symm))

/-! ### What the writer writes, the reader reads -/

theorem skip_of_head {cs : List Char} (h : ∀ c ∈ cs.head?, isBlank c = false) : skip cs = cs := by
  cases cs with
  | nil => rfl
  | cons c rest =>
      have hc := h c (by simp)
      rw [skip, List.dropWhile_cons_of_neg (by simp [hc])]

private theorem readChar_control {n : Nat} (h : n < 32) (s : List Char) :
    readChar (escapeChar (Char.ofNat n) ++ s) = some (Char.ofNat n, s) := by
  interval_cases n <;> rfl

theorem readChar_escapeChar (c : Char) (s : List Char) :
    readChar (escapeChar c ++ s) = some (c, s) := by
  by_cases hlow : c.toNat < 32
  · have h := readChar_control hlow s
    rw [Char.ofNat_toNat] at h
    exact h
  · by_cases hquote : c = '"'
    · rw [hquote]
      rfl
    · by_cases hslash : c = '\\'
      · rw [hslash]
        rfl
      · have hplain : escapeChar c = [c] := by
          have hne : ∀ d : Char, d.toNat < 32 → c ≠ d := by
            rintro d hd rfl
            exact hlow hd
          unfold escapeChar
          rw [if_neg hquote, if_neg hslash, if_neg (hne '\n' (by decide)),
            if_neg (hne '\r' (by decide)), if_neg (hne '\t' (by decide)),
            if_neg (hne (Char.ofNat 8) (by decide)), if_neg (hne (Char.ofNat 12) (by decide)),
            if_neg hlow]
        rw [hplain, List.singleton_append]
        unfold readChar
        split
        · rename_i heq
          exact absurd (List.cons.inj heq).1 hslash
        · rename_i heq
          obtain ⟨rfl, rfl⟩ := List.cons.inj heq
          rw [if_neg]
          rintro (h | h | h)
          exacts [hslash h, hquote h, hlow h]
        · rename_i heq
          cases heq

theorem readChars_escapeChars (cs : List Char) (s : List Char) :
    ∀ fuel, cs.length < fuel → readChars fuel (escapeChars cs ++ '"' :: s) = some (cs, s) := by
  induction cs with
  | nil =>
      intro fuel hfuel
      obtain ⟨fuel, rfl⟩ := Nat.exists_eq_succ_of_ne_zero (Nat.ne_of_gt hfuel)
      rfl
  | cons c cs ih =>
      intro fuel hfuel
      obtain ⟨fuel, rfl⟩ := Nat.exists_eq_succ_of_ne_zero (Nat.ne_of_gt (Nat.zero_lt_of_lt hfuel))
      have hread := readChar_escapeChar c (escapeChars cs ++ '"' :: s)
      have hhead : ∀ rest, escapeChars (c :: cs) ++ '"' :: s ≠ '"' :: rest := by
        intro rest h
        rw [escapeChars, List.flatMap_cons, List.append_assoc] at h
        rw [escapeChars, h] at hread
        simp [readChar] at hread
      have hrest := ih fuel (by simpa using hfuel)
      rw [readChars]
      · rw [escapeChars] at hread hrest
        rw [escapeChars, List.flatMap_cons, List.append_assoc, hread]
        simp only [Option.bind_eq_bind, Option.bind_some, hrest, Option.pure_def]
      · exact hhead

theorem length_escapeChars (cs : List Char) : cs.length ≤ (escapeChars cs).length := by
  induction cs with
  | nil => simp [escapeChars]
  | cons c cs ih =>
      have hne : 1 ≤ (escapeChar c).length := by
        unfold escapeChar
        repeat' split
        all_goals simp
      rw [escapeChars, List.flatMap_cons, List.length_append, List.length_cons]
      rw [escapeChars] at ih
      omega

theorem readString_renderString (a : String) (s : List Char) {fuel : Nat}
    (hfuel : (renderString a).length ≤ fuel + 1) :
    readString fuel (escapeChars a.toList ++ '"' :: s) = some (a, s) := by
  have hlength := length_escapeChars a.toList
  have hchars : a.toList.length < fuel := by
    simp only [renderString, List.length_cons, List.length_append, List.length_nil] at hfuel
    omega
  rw [readString, readChars_escapeChars _ _ fuel hchars]
  simp

theorem renderNat_head_ne_zero (n : Nat) (hn : n ≠ 0) : ∀ c ∈ (renderNat n).head?, c ≠ '0' := by
  induction n using Nat.strong_induction_on with
  | _ n ih =>
      intro c hc
      by_cases hsmall : n < 10
      · rw [renderNat, Nat.toDigits_of_lt_base hsmall] at hc
        have hc : c = n.digitChar := by simpa using hc.symm
        rw [hc]
        interval_cases n <;> first | exact absurd rfl hn | decide
      · have hstep : renderNat n = renderNat (n / 10) ++ [(n % 10).digitChar] :=
          Nat.toDigits_of_base_le (by decide) (Nat.le_of_not_lt hsmall)
        obtain ⟨d, rest, hd, -⟩ := renderNat_head (n / 10)
        rw [hstep, hd] at hc
        refine ih (n / 10) (by omega) (by omega) c ?_
        rw [hd]
        exact hc

theorem takeWhile_digits {cs s : List Char} (hcs : ∀ c ∈ cs, c.isDigit = true)
    (hs : ∀ c ∈ s.head?, c.isDigit = false) :
    (cs ++ s).takeWhile Char.isDigit = cs ∧ (cs ++ s).dropWhile Char.isDigit = s := by
  have hnil : s.takeWhile Char.isDigit = [] ∧ s.dropWhile Char.isDigit = s := by
    cases s with
    | nil => exact ⟨rfl, rfl⟩
    | cons c rest =>
        have hc := hs c (by simp)
        rw [List.takeWhile_cons_of_neg (by simp [hc]), List.dropWhile_cons_of_neg (by simp [hc])]
        exact ⟨rfl, rfl⟩
  rw [List.takeWhile_append_of_pos hcs, List.dropWhile_append_of_pos hcs, hnil.1, hnil.2,
    List.append_nil]
  exact ⟨rfl, rfl⟩

theorem readNat_renderNat (n : Nat) {s : List Char} (hs : ∀ c ∈ s.head?, c.isDigit = false) :
    readNat (renderNat n ++ s) = some (n, s) := by
  by_cases hn : n = 0
  · rw [hn]
    rfl
  · obtain ⟨c, rest, hc, hdigit⟩ := renderNat_head n
    have hzero : c ≠ '0' := renderNat_head_ne_zero n hn c (by rw [hc]; rfl)
    obtain ⟨htake, hdrop⟩ := takeWhile_digits (renderNat_isDigit (n := n)) hs
    rw [hc, List.cons_append] at htake hdrop ⊢
    rw [readNat, if_neg hzero, if_pos hdigit, htake, hdrop, ← hc]
    simp [renderNat]

theorem readInt_renderInt (n : Int) {s : List Char} (hs : ∀ c ∈ s.head?, c.isDigit = false) :
    readInt (renderInt n ++ s) = some (n, s) := by
  have hread := readNat_renderNat n.natAbs hs
  unfold renderInt
  split
  · rw [List.cons_append, readInt, hread]
    simp only [Option.map_some, Option.some.injEq, Prod.mk.injEq, and_true]
    omega
  · obtain ⟨c, rest, hc, hdigit⟩ := renderNat_head n.natAbs
    have hminus : ∀ tail, renderNat n.natAbs ++ s ≠ '-' :: tail := by
      intro tail h
      rw [hc, List.cons_append] at h
      rw [(List.cons.inj h).1] at hdigit
      exact absurd hdigit (by decide)
    rw [readInt, hread]
    · simp only [Option.map_some, Option.some.injEq, Prod.mk.injEq, and_true]
      omega
    · exact hminus

/-- A value begins with something that is neither white space nor a closing bracket. -/
theorem render_head_opens (a : Json) :
    ∃ c rest, a.render = c :: rest ∧ isBlank c = false ∧ c ≠ ']' ∧ c ≠ '}' := by
  cases a with
  | null => exact ⟨'n', _, by rw [render], by decide⟩
  | bool b =>
      cases b with
      | true => exact ⟨'t', _, by rw [render], by decide⟩
      | false => exact ⟨'f', _, by rw [render], by decide⟩
  | int n =>
      obtain ⟨c, rest, hc, hlead⟩ := renderInt_head n
      refine ⟨c, rest, by rw [render, hc], ?_⟩
      rcases hlead with rfl | hdigit
      · decide
      · refine ⟨?_, ?_, ?_⟩
        · unfold isBlank
          simp only [Bool.or_eq_false_iff, beq_eq_false_iff_ne]
          refine ⟨⟨⟨?_, ?_⟩, ?_⟩, ?_⟩ <;> rintro rfl <;> simp at hdigit
        · rintro rfl
          simp at hdigit
        · rintro rfl
          simp at hdigit
  | str s => exact ⟨'"', _, by rw [render, renderString], by decide⟩
  | arr items => cases items <;> exact ⟨'[', _, by rw [render], by decide⟩
  | obj members => cases members <;> exact ⟨'{', _, by rw [render], by decide⟩

theorem skip_render (a : Json) (s : List Char) : skip (a.render ++ s) = a.render ++ s := by
  obtain ⟨c, rest, hc, hblank, -⟩ := render_head_opens a
  refine skip_of_head ?_
  intro d hd
  rw [hc, List.cons_append, List.head?_cons, Option.mem_def, Option.some.injEq] at hd
  rw [← hd]
  exact hblank

theorem length_render_pos (a : Json) : 1 ≤ a.render.length := by
  obtain ⟨c, rest, hc, -⟩ := render_head_opens a
  rw [hc]
  simp

/-- The text of an integer is read as an integer, whatever fuel there is. -/
private theorem readValue_int (n : Int) {s : List Char} (hs : Delimited s) (fuel : Nat) :
    readValue (fuel + 1) (renderInt n ++ s) = some (.int n, s) := by
  obtain ⟨c, rest, hc, hlead⟩ := renderInt_head n
  have hne : ∀ d : Char, ¬ (d = '-' ∨ d.isDigit = true) → ∀ tail, renderInt n ++ s ≠ d :: tail := by
    intro d hd tail h
    rw [hc, List.cons_append] at h
    rw [(List.cons.inj h).1] at hlead
    exact hd hlead
  rw [readValue, readInt_renderInt n hs.not_digit]
  · rfl
  all_goals
    intro tail
    exact hne _ (by decide) _

mutual

theorem readValue_render : ∀ (a : Json) (fuel : Nat) {s : List Char}, Unique a → Delimited s →
    a.render.length ≤ fuel → readValue fuel (a.render ++ s) = some (a, s)
  | a, 0, s, _, _, hfuel => absurd (length_render_pos a) (by omega)
  | .null, fuel + 1, s, _, _, _ => by rw [render]; rfl
  | .bool true, fuel + 1, s, _, _, _ => by rw [render]; rfl
  | .bool false, fuel + 1, s, _, _, _ => by rw [render]; rfl
  | .int n, fuel + 1, s, _, hs, _ => by rw [render]; exact readValue_int n hs fuel
  | .str a, fuel + 1, s, _, _, hfuel => by
      rw [render] at hfuel ⊢
      rw [renderString, List.cons_append, List.append_assoc, List.singleton_append, readValue,
        readString_renderString a s hfuel]
      rfl
  | .arr [], fuel + 1, s, _, _, _ => by rw [render]; rfl
  | .arr (item :: rest), fuel + 1, s, hunique, hs, hfuel => by
      rw [Unique, UniqueItems] at hunique
      rw [render] at hfuel ⊢
      rw [List.cons_append, List.append_assoc, readValue, skip_render]
      have hread := readItems_render item rest fuel (s := s) hunique.1 hunique.2
        (by simp only [List.length_cons, List.length_append] at hfuel; omega)
      obtain ⟨c, tail, hc, -, hclose, -⟩ := render_head_opens item
      rw [hc] at hread ⊢
      split
      · rename_i heq
        exact absurd (List.cons.inj heq).1 hclose
      · rw [hread]
        rfl
  | .obj [], fuel + 1, s, _, _, _ => by rw [render]; rfl
  | .obj ((key, value) :: rest), fuel + 1, s, hunique, hs, hfuel => by
      rw [Unique, UniqueMembers] at hunique
      rw [render] at hfuel ⊢
      have hread := readMembers_render key value rest fuel (s := s) hunique.2.1
        hunique.2.2 (by simp only [List.length_cons, List.length_append] at hfuel ⊢; omega)
      have hskip : skip (renderString key ++ ':' :: (value.render ++ renderMembers rest) ++ s) =
          renderString key ++ ':' :: (value.render ++ (renderMembers rest ++ s)) := by
        rw [renderString]
        simp only [List.cons_append, List.append_assoc]
        rfl
      rw [List.cons_append, readValue, hskip]
      rw [renderString, List.cons_append] at hread ⊢
      split
      · rename_i heq
        exact absurd (List.cons.inj heq).1 (by decide)
      · rw [hread]
        simp only [Option.bind_eq_bind, Option.bind_some, if_pos hunique.1, Option.pure_def]

theorem readItems_render : ∀ (item : Json) (rest : List Json) (fuel : Nat) {s : List Char},
    Unique item → UniqueItems rest → item.render.length + (renderItems rest).length ≤ fuel →
    readItems fuel (item.render ++ (renderItems rest ++ s)) = some (item :: rest, s)
  | item, rest, 0, s, _, _, hfuel => absurd (length_render_pos item) (by omega)
  | item, [], fuel + 1, s, hitem, _, hfuel => by
      rw [renderItems, List.length_singleton] at hfuel
      rw [readItems, readValue_render item fuel hitem (renderItems_delimited [] s) (by omega)]
      rfl
  | item, next :: rest, fuel + 1, s, hitem, hrest, hfuel => by
      rw [UniqueItems] at hrest
      simp only [renderItems, List.length_cons, List.length_append] at hfuel
      rw [readItems, readValue_render item fuel hitem (renderItems_delimited (next :: rest) s)
        (by omega)]
      have hread := readItems_render next rest fuel (s := s) hrest.1 hrest.2 (by omega)
      have hskip : skip (renderItems (next :: rest) ++ s) =
          ',' :: (next.render ++ (renderItems rest ++ s)) := by
        rw [renderItems, List.cons_append, List.append_assoc]
        rfl
      simp only [Option.bind_eq_bind, Option.bind_some, hskip, skip_render, hread, Option.pure_def]

theorem readMembers_render : ∀ (key : String) (value : Json) (rest : List (String × Json))
    (fuel : Nat) {s : List Char}, Unique value → UniqueMembers rest →
    (renderString key).length + 1 + value.render.length + (renderMembers rest).length ≤ fuel →
    readMembers fuel (renderString key ++ ':' :: (value.render ++ (renderMembers rest ++ s))) =
      some ((key, value) :: rest, s)
  | key, value, rest, 0, s, _, _, hfuel => absurd (length_render_pos value) (by omega)
  | key, value, [], fuel + 1, s, hvalue, _, hfuel => by
      rw [renderMembers, List.length_singleton] at hfuel
      rw [renderString, List.cons_append, List.append_assoc, List.singleton_append, readMembers,
        readString_renderString key _ (by omega)]
      have hread := readValue_render value fuel hvalue (renderMembers_delimited [] s)
        (by omega)
      have hskip : skip (':' :: (value.render ++ (renderMembers [] ++ s))) =
        ':' :: (value.render ++ (renderMembers [] ++ s)) := rfl
      simp only [Option.bind_eq_bind, Option.bind_some, hskip, skip_render, hread]
      rfl
  | key, value, (key', value') :: rest, fuel + 1, s, hvalue, hrest, hfuel => by
      rw [UniqueMembers] at hrest
      simp only [renderMembers, List.length_cons, List.length_append] at hfuel
      rw [renderString, List.cons_append, List.append_assoc, List.singleton_append, readMembers,
        readString_renderString key _ (by omega)]
      have hread := readValue_render value fuel hvalue
        (renderMembers_delimited ((key', value') :: rest) s) (by omega)
      have hnext := readMembers_render key' value' rest fuel (s := s) hrest.1 hrest.2
        (by omega)
      have hskip : skip (':' :: (value.render ++ (renderMembers ((key', value') :: rest) ++ s))) =
        ':' :: (value.render ++ (renderMembers ((key', value') :: rest) ++ s)) := rfl
      have hcomma : skip (renderMembers ((key', value') :: rest) ++ s) = ',' ::
          (renderString key' ++ ':' :: (value'.render ++ (renderMembers rest ++ s))) := by
        rw [renderMembers]
        simp only [List.cons_append, List.append_assoc]
        rfl
      have hkey : skip (renderString key' ++ ':' :: (value'.render ++ (renderMembers rest ++ s))) =
          renderString key' ++ ':' :: (value'.render ++ (renderMembers rest ++ s)) := by
        rw [renderString, List.cons_append]
        rfl
      simp only [Option.bind_eq_bind, Option.bind_some, hskip, skip_render, hread, hcomma, hkey,
        hnext, Option.pure_def]

end

/-! ### What is read has no key twice -/

/-- No value that is read with some fuel has a key twice. -/
private def ReadsUnique (fuel : Nat) : Prop :=
  (∀ cs a rest, readValue fuel cs = some (a, rest) → Unique a) ∧
  (∀ cs items rest, readItems fuel cs = some (items, rest) → UniqueItems items) ∧
  ∀ cs members rest, readMembers fuel cs = some (members, rest) → UniqueMembers members

private theorem readsUnique_value {fuel : Nat} (ih : ReadsUnique fuel) {cs rest : List Char}
    {a : Json} (h : readValue (fuel + 1) cs = some (a, rest)) : Unique a := by
  rw [readValue.eq_def] at h
  dsimp only at h
  split at h
  · cases h; trivial
  · cases h; trivial
  · cases h; trivial
  · obtain ⟨⟨s, tail⟩, -, heq⟩ := Option.map_eq_some_iff.mp h
    cases heq
    trivial
  · split at h
    · cases h
      trivial
    · obtain ⟨⟨items, tail⟩, hitems, heq⟩ := Option.map_eq_some_iff.mp h
      cases heq
      exact ih.2.1 _ _ _ hitems
  · split at h
    · cases h
      exact ⟨List.nodup_nil, trivial⟩
    · obtain ⟨⟨members, tail⟩, hmembers, h⟩ := Option.bind_eq_some_iff.mp h
      dsimp only at h
      split at h
      · rename_i hnodup
        cases h
        exact ⟨hnodup, ih.2.2 _ _ _ hmembers⟩
      · cases h
  · obtain ⟨⟨n, tail⟩, -, heq⟩ := Option.map_eq_some_iff.mp h
    cases heq
    trivial

private theorem readsUnique_items {fuel : Nat} (ih : ReadsUnique fuel) {cs rest : List Char}
    {items : List Json} (h : readItems (fuel + 1) cs = some (items, rest)) :
    UniqueItems items := by
  rw [readItems] at h
  obtain ⟨⟨item, tail⟩, hitem, h⟩ := Option.bind_eq_some_iff.mp h
  have hunique := ih.1 _ _ _ hitem
  dsimp only at h
  split at h
  · cases h
    exact ⟨hunique, trivial⟩
  · obtain ⟨⟨more, tail⟩, hmore, h⟩ := Option.bind_eq_some_iff.mp h
    cases h
    exact ⟨hunique, ih.2.1 _ _ _ hmore⟩
  · cases h

private theorem readsUnique_members {fuel : Nat} (ih : ReadsUnique fuel) {cs rest : List Char}
    {members : List (String × Json)} (h : readMembers (fuel + 1) cs = some (members, rest)) :
    UniqueMembers members := by
  rw [readMembers.eq_def] at h
  dsimp only at h
  split at h
  · obtain ⟨⟨key, tail⟩, -, h⟩ := Option.bind_eq_some_iff.mp h
    dsimp only at h
    split at h
    · obtain ⟨⟨value, tail⟩, hvalue, h⟩ := Option.bind_eq_some_iff.mp h
      have hunique := ih.1 _ _ _ hvalue
      dsimp only at h
      split at h
      · cases h
        exact ⟨hunique, trivial⟩
      · obtain ⟨⟨more, tail⟩, hmore, h⟩ := Option.bind_eq_some_iff.mp h
        cases h
        exact ⟨hunique, ih.2.2 _ _ _ hmore⟩
      · cases h
    · cases h
  · cases h

private theorem readsUnique (fuel : Nat) : ReadsUnique fuel := by
  induction fuel with
  | zero =>
      refine ⟨?_, ?_, ?_⟩
      · intro cs a rest h
        simp [readValue] at h
      · intro cs items rest h
        simp [readItems] at h
      · intro cs members rest h
        simp [readMembers] at h
  | succ fuel ih =>
      exact ⟨fun _ _ _ => readsUnique_value ih, fun _ _ _ => readsUnique_items ih,
        fun _ _ _ => readsUnique_members ih⟩

theorem loads_unique {text : String} {value : Json} (h : loads text = some value) :
    Unique value := by
  unfold loads at h
  obtain ⟨⟨value', rest⟩, hread, h⟩ := Option.bind_eq_some_iff.mp h
  dsimp only at h
  split at h
  · cases h
    exact (readsUnique _).1 _ _ _ hread
  · cases h

/-! ### Texts and canonical values -/

theorem loads_render {value : Json} (h : Unique value) :
    loads (String.ofList value.render) = some value := by
  have hread := readValue_render value (value.render.length + 1) (s := []) h
    (by intro c hc; simp at hc) (by omega)
  have hskip := skip_render value []
  rw [List.append_nil] at hread hskip
  unfold loads
  rw [String.toList_ofList, hskip, hread]
  rfl

mutual

theorem canonical_unique : ∀ {value : Json}, Unique value → Unique value.canonical
  | .null, _ => trivial
  | .bool _, _ => trivial
  | .int _, _ => trivial
  | .str _, _ => trivial
  | .arr items, h => by
      rw [Unique] at h
      rw [canonical, Unique]
      exact canonicalItems_unique h
  | .obj members, h => by
      rw [Unique] at h
      have hperm := List.perm_insertionSort (fun a b : String × Json => a.1 ≤ b.1)
        (canonicalMembers members)
      have hkeys : (canonicalMembers members).map Prod.fst = members.map Prod.fst := by
        rw [canonicalMembers_eq, List.map_map]
        rfl
      have hvalues := uniqueMembers_iff.mp (canonicalMembers_unique h.2)
      rw [canonical, object, Unique, uniqueMembers_iff, (hperm.map Prod.fst).nodup_iff, hkeys]
      exact ⟨h.1, fun m hm => hvalues m (hperm.subset hm)⟩

theorem canonicalItems_unique : ∀ {items : List Json}, UniqueItems items →
    UniqueItems (canonicalItems items)
  | [], _ => trivial
  | _ :: _, h => ⟨canonical_unique h.1, canonicalItems_unique h.2⟩

theorem canonicalMembers_unique : ∀ {members : List (String × Json)}, UniqueMembers members →
    UniqueMembers (canonicalMembers members)
  | [], _ => trivial
  | (_, _) :: _, h => ⟨canonical_unique h.1, canonicalMembers_unique h.2⟩

end

/-- **Texts that are accepted and canonical values are the same thing.** -/
theorem canonicalLoads_iff {text : String} {value : Json} :
    canonicalLoads text = some value ↔ Canonical value ∧ String.ofList value.render = text := by
  unfold canonicalLoads
  rw [Option.bind_eq_bind, Option.bind_eq_some_iff]
  constructor
  · rintro ⟨read, hread, h⟩
    split at h
    · rename_i htext
      cases h
      have hunique := loads_unique hread
      -- the text is also the text of the canonical value, so that is what was read
      have hcanonical : loads text = some value.canonical := by
        rw [← htext]
        exact loads_render (canonical_unique hunique)
      have hself : value.canonical = value := Option.some.inj (hcanonical.symm.trans hread)
      refine ⟨⟨hself, hunique⟩, ?_⟩
      rw [dumps, hself] at htext
      exact htext
    · cases h
  · rintro ⟨⟨hself, hunique⟩, rfl⟩
    refine ⟨value, loads_render hunique, ?_⟩
    rw [dumps, hself, if_pos rfl]
    rfl

/-- The members of an object, read from its canonical text. -/
def loadMembers {ε : Type*} (absent other : ε) (text : String) : Except ε (List (String × Json)) :=
  match loads text with
  | none => .error absent
  | some value =>
      match value with
      | .obj members => if value.dumps = text then .ok members else .error other
      | _ => .error other

theorem loadMembers_ok {ε : Type*} {absent other : ε} {text : String}
    {members : List (String × Json)} : loadMembers absent other text = .ok members ↔
      Canonical (.obj members) ∧ String.ofList (obj members).render = text := by
  rw [← canonicalLoads_iff]
  unfold loadMembers canonicalLoads
  rw [Option.bind_eq_bind, Option.bind_eq_some_iff]
  constructor
  · intro h
    split at h
    · cases h
    · rename_i value hvalue
      refine ⟨value, hvalue, ?_⟩
      split at h
      · split at h
        · rename_i htext
          cases h
          rw [if_pos htext]
          rfl
        · cases h
      · cases h
  · rintro ⟨value, hvalue, h⟩
    split at h
    · rename_i htext
      cases h
      rw [hvalue]
      exact if_pos htext
    · cases h

end Evleda.Json
