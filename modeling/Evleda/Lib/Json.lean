/-
JSON values, and the one text each of them is written as.

Every digest of the program is taken over the text of a JSON value: keys sorted,
no blanks, no floating-point numbers, characters outside ASCII written as they
are.  What a collision-free hash gives back is the equality of two such texts,
so a proof that wants the *values* needs the writer to be injective.

That is what this file proves.  The writer is unambiguous with a tail: if two
values followed by something that cannot continue a value read the same, then
the values are the same and so are the tails.
-/
import Mathlib.Data.List.Sort
import Mathlib.Data.String.Basic
import Mathlib.Data.List.Infix

namespace Evleda

/-- A JSON value without floating-point numbers; an object lists its members. -/
inductive Json where
  | null
  | bool (value : Bool)
  | int (value : Int)
  | str (value : String)
  | arr (items : List Json)
  | obj (members : List (String × Json))

namespace Json

/-- An object with its members in the order of their keys. -/
def object (members : List (String × Json)) : Json :=
  .obj (members.insertionSort (fun a b => a.1 ≤ b.1))

theorem perm_of_object_eq {members members' : List (String × Json)}
    (h : object members = object members') : members.Perm members' := by
  have hsorted := Json.obj.inj h
  have hperm := (List.perm_insertionSort (fun a b : String × Json => a.1 ≤ b.1) members).symm
  rw [hsorted] at hperm
  exact hperm.trans (List.perm_insertionSort _ members')

theorem member_eq {members members' : List (String × Json)} (h : object members = object members')
    (hkeys : (members'.map Prod.fst).Nodup) {key : String} {value value' : Json}
    (hmem : (key, value) ∈ members) (hmem' : (key, value') ∈ members') : value = value' := by
  have hsame := (perm_of_object_eq h).subset hmem
  exact congrArg Prod.snd (List.inj_on_of_nodup_map hkeys hsame hmem' rfl)

/-- The member of an object under a key, as `dict.get` reads it. -/
def get? (members : List (String × Json)) (key : String) : Option Json :=
  (members.find? (fun member => member.1 == key)).map Prod.snd

mutual

/-- The value with the members of every object in the order of their keys. -/
def canonical : Json → Json
  | .arr items => .arr (canonicalItems items)
  | .obj members => object (canonicalMembers members)
  | value => value

def canonicalItems : List Json → List Json
  | [] => []
  | item :: rest => canonical item :: canonicalItems rest

def canonicalMembers : List (String × Json) → List (String × Json)
  | [] => []
  | (key, value) :: rest => (key, canonical value) :: canonicalMembers rest

end

/-! ### The writer -/

/-- How one character stands inside a string. -/
def escapeChar (c : Char) : List Char :=
  if c = '"' then ['\\', '"']
  else if c = '\\' then ['\\', '\\']
  else if c = '\n' then ['\\', 'n']
  else if c = '\r' then ['\\', 'r']
  else if c = '\t' then ['\\', 't']
  else if c = Char.ofNat 8 then ['\\', 'b']
  else if c = Char.ofNat 12 then ['\\', 'f']
  else if c.toNat < 32 then
    ['\\', 'u', '0', '0', (c.toNat / 16).digitChar, (c.toNat % 16).digitChar]
  else [c]

def escapeChars (cs : List Char) : List Char := cs.flatMap escapeChar

def renderString (s : String) : List Char := '"' :: (escapeChars s.toList ++ ['"'])

def renderNat (n : Nat) : List Char := Nat.toDigits 10 n

def renderInt (n : Int) : List Char :=
  if n < 0 then '-' :: renderNat n.natAbs else renderNat n.natAbs

mutual

/-- The text of a value, as `json.dumps` with sorted keys and no blanks writes it. -/
def render : Json → List Char
  | .null => ['n', 'u', 'l', 'l']
  | .bool true => ['t', 'r', 'u', 'e']
  | .bool false => ['f', 'a', 'l', 's', 'e']
  | .int n => renderInt n
  | .str s => renderString s
  | .arr [] => ['[', ']']
  | .arr (item :: rest) => '[' :: (render item ++ renderItems rest)
  | .obj [] => ['{', '}']
  | .obj ((key, value) :: rest) =>
      '{' :: (renderString key ++ ':' :: (render value ++ renderMembers rest))

/-- The elements after the first, with the closing bracket. -/
def renderItems : List Json → List Char
  | [] => [']']
  | item :: rest => ',' :: (render item ++ renderItems rest)

/-- The members after the first, with the closing brace. -/
def renderMembers : List (String × Json) → List Char
  | [] => ['}']
  | (key, value) :: rest =>
      ',' :: (renderString key ++ ':' :: (render value ++ renderMembers rest))

end

/-! ### The writer is unambiguous -/

/-- The characters that are not written as themselves. -/
private def escaped : List Char := '"' :: '\\' :: (List.range 32).map Char.ofNat

private theorem mem_escaped_of_lt {c : Char} (h : c.toNat < 32) : c ∈ escaped := by
  have hc : Char.ofNat c.toNat = c := Char.ofNat_toNat c
  rw [← hc]
  simp only [escaped, List.mem_cons, List.mem_map, List.mem_range]
  exact Or.inr (Or.inr ⟨c.toNat, h, rfl⟩)

private theorem escapeChar_plain {c : Char} (h : c ∉ escaped) : escapeChar c = [c] := by
  have hlt : ¬ c.toNat < 32 := fun hlt => h (mem_escaped_of_lt hlt)
  have hne : ∀ d ∈ escaped, c ≠ d := by
    rintro d hd rfl
    exact h hd
  have hquote := hne '"' (by decide)
  have hslash := hne '\\' (by decide)
  have hn := hne '\n' (by decide)
  have hr := hne '\r' (by decide)
  have ht := hne '\t' (by decide)
  have hb := hne (Char.ofNat 8) (by decide)
  have hf := hne (Char.ofNat 12) (by decide)
  unfold escapeChar
  rw [if_neg hquote, if_neg hslash, if_neg hn, if_neg hr, if_neg ht, if_neg hb, if_neg hf,
    if_neg hlt]

private theorem escaped_all :
    (escaped.all fun c => (escapeChar c).head? == some '\\' &&
      escaped.all fun d => !(escapeChar c).isPrefixOf (escapeChar d) || c == d) = true := by
  decide +kernel

private theorem escapeChar_escaped :
    ∀ c ∈ escaped, (escapeChar c).head? = some '\\' ∧
      ∀ d ∈ escaped, escapeChar c <+: escapeChar d → c = d := by
  intro c hc
  have hall := List.all_eq_true.mp escaped_all c hc
  rw [Bool.and_eq_true, beq_iff_eq] at hall
  refine ⟨hall.1, ?_⟩
  intro d hd hextends
  have hd := List.all_eq_true.mp hall.2 d hd
  rw [List.isPrefixOf_iff_prefix.mpr hextends] at hd
  simpa using hd

private theorem escapeChar_append {c d : Char} {s t : List Char}
    (h : escapeChar c ++ s = escapeChar d ++ t) : c = d ∧ s = t := by
  suffices hcd : c = d by
    subst hcd
    exact ⟨rfl, List.append_cancel_left h⟩
  by_cases hc : c ∈ escaped
  · have hhead := (escapeChar_escaped c hc).1
    by_cases hd : d ∈ escaped
    · -- both are escapes: one is a beginning of the other
      have hpc : escapeChar c <+: escapeChar d ++ t := ⟨s, h⟩
      have hpd : escapeChar d <+: escapeChar d ++ t := ⟨t, rfl⟩
      rcases List.prefix_or_prefix_of_prefix hpc hpd with hp | hp
      · exact (escapeChar_escaped c hc).2 d hd hp
      · exact ((escapeChar_escaped d hd).2 c hc hp).symm
    · exfalso
      rw [escapeChar_plain hd] at h
      have hheads := congrArg List.head? h
      rw [List.head?_append, hhead] at hheads
      simp only [Option.some_or, List.cons_append, List.head?_cons, Option.some.injEq] at hheads
      exact hd (hheads ▸ by decide)
  · rw [escapeChar_plain hc] at h
    by_cases hd : d ∈ escaped
    · exfalso
      have hhead := (escapeChar_escaped d hd).1
      have hheads := congrArg List.head? h
      rw [List.head?_append (l := escapeChar d), hhead] at hheads
      simp only [Option.some_or, List.cons_append, List.head?_cons, Option.some.injEq] at hheads
      exact hc (hheads ▸ by decide)
    · rw [escapeChar_plain hd] at h
      simp only [List.cons_append, List.cons.injEq] at h
      exact h.1

private theorem escapeChar_ne_quote (c : Char) (s t : List Char) :
    escapeChar c ++ s ≠ '"' :: t := by
  intro h
  have hheads := congrArg List.head? h
  by_cases hc : c ∈ escaped
  · rw [List.head?_append, (escapeChar_escaped c hc).1] at hheads
    simp at hheads
  · rw [escapeChar_plain hc] at hheads
    simp only [List.cons_append, List.head?_cons, Option.some.injEq] at hheads
    exact hc (hheads ▸ by decide)

private theorem escapeChars_append (cs : List Char) :
    ∀ {ds s t : List Char}, escapeChars cs ++ '"' :: s = escapeChars ds ++ '"' :: t →
      cs = ds ∧ s = t := by
  induction cs with
  | nil =>
      intro ds s t h
      cases ds with
      | nil => simpa [escapeChars] using h
      | cons d ds =>
          simp only [escapeChars, List.flatMap_nil, List.nil_append, List.flatMap_cons,
            List.append_assoc] at h
          exact absurd h.symm (escapeChar_ne_quote d _ _)
  | cons c cs ih =>
      intro ds s t h
      cases ds with
      | nil =>
          simp only [escapeChars, List.flatMap_nil, List.nil_append, List.flatMap_cons,
            List.append_assoc] at h
          exact absurd h (escapeChar_ne_quote c _ _)
      | cons d ds =>
          simp only [escapeChars, List.flatMap_cons, List.append_assoc] at h
          obtain ⟨rfl, hrest⟩ := escapeChar_append h
          obtain ⟨rfl, rfl⟩ := ih hrest
          exact ⟨rfl, rfl⟩

theorem renderString_append {a b : String} {s t : List Char}
    (h : renderString a ++ s = renderString b ++ t) : a = b ∧ s = t := by
  simp only [renderString, List.cons_append, List.append_assoc, List.cons.injEq, true_and,
    List.nil_append] at h
  obtain ⟨hchars, hrest⟩ := escapeChars_append _ h
  exact ⟨String.toList_inj.mp hchars, hrest⟩

/-- What may follow a value: nothing, a comma or a closing bracket. -/
def Delimited (s : List Char) : Prop :=
  ∀ c ∈ s.head?, c = ',' ∨ c = ']' ∨ c = '}'

theorem Delimited.not_digit {s : List Char} (h : Delimited s) :
    ∀ c ∈ s.head?, c.isDigit = false := by
  intro c hc
  rcases h c hc with rfl | rfl | rfl <;> decide

/-- Two runs of digits, each followed by something else, are cut at the same place. -/
theorem digits_append {cs ds s t : List Char} (hcs : ∀ c ∈ cs, c.isDigit = true)
    (hds : ∀ c ∈ ds, c.isDigit = true) (hs : ∀ c ∈ s.head?, c.isDigit = false)
    (ht : ∀ c ∈ t.head?, c.isDigit = false) (h : cs ++ s = ds ++ t) : cs = ds ∧ s = t := by
  induction cs generalizing ds with
  | nil =>
      cases ds with
      | nil => exact ⟨rfl, by simpa using h⟩
      | cons d ds =>
          rw [List.nil_append] at h
          have := hs d (by rw [h]; rfl)
          rw [hds d (by simp)] at this
          exact absurd this (by decide)
  | cons c cs ih =>
      cases ds with
      | nil =>
          rw [List.nil_append] at h
          have := ht c (by rw [← h]; rfl)
          rw [hcs c (by simp)] at this
          exact absurd this (by decide)
      | cons d ds =>
          simp only [List.cons_append, List.cons.injEq] at h
          obtain ⟨rfl, hrest⟩ := h
          obtain ⟨rfl, rfl⟩ := ih (fun x hx => hcs x (by simp [hx]))
            (fun x hx => hds x (by simp [hx])) hrest
          exact ⟨rfl, rfl⟩

theorem renderNat_isDigit {n : Nat} : ∀ c ∈ renderNat n, c.isDigit = true := by
  intro c hc
  exact Nat.isDigit_of_mem_toDigits (by decide) (by decide) hc

theorem renderNat_injective {m n : Nat} (h : renderNat m = renderNat n) : m = n := by
  have hread := congrArg (fun cs => Nat.ofDigitChars 10 cs 0) h
  simpa [renderNat] using hread

theorem renderNat_head (n : Nat) : ∃ c rest, renderNat n = c :: rest ∧ c.isDigit = true := by
  cases hn : renderNat n with
  | nil => exact absurd hn Nat.toDigits_ne_nil
  | cons c rest => exact ⟨c, rest, rfl, renderNat_isDigit c (by rw [hn]; simp)⟩

theorem renderNat_append {m n : Nat} {s t : List Char} (hs : ∀ c ∈ s.head?, c.isDigit = false)
    (ht : ∀ c ∈ t.head?, c.isDigit = false) (h : renderNat m ++ s = renderNat n ++ t) :
    m = n ∧ s = t := by
  obtain ⟨hdigits, hrest⟩ := digits_append renderNat_isDigit renderNat_isDigit hs ht h
  exact ⟨renderNat_injective hdigits, hrest⟩

/-- An integer begins with a digit or with a minus sign. -/
theorem renderInt_head (n : Int) :
    ∃ c rest, renderInt n = c :: rest ∧ (c = '-' ∨ c.isDigit = true) := by
  unfold renderInt
  split
  · exact ⟨'-', _, rfl, Or.inl rfl⟩
  · obtain ⟨c, rest, hc, hdigit⟩ := renderNat_head n.natAbs
    exact ⟨c, rest, hc, Or.inr hdigit⟩

theorem renderInt_append {m n : Int} {s t : List Char} (hs : ∀ c ∈ s.head?, c.isDigit = false)
    (ht : ∀ c ∈ t.head?, c.isDigit = false) (h : renderInt m ++ s = renderInt n ++ t) :
    m = n ∧ s = t := by
  unfold renderInt at h
  split at h <;> split at h
  · simp only [List.cons_append, List.cons.injEq, true_and] at h
    obtain ⟨habs, hrest⟩ := renderNat_append hs ht h
    exact ⟨by omega, hrest⟩
  · exfalso
    obtain ⟨c, rest, hc, hdigit⟩ := renderNat_head n.natAbs
    rw [hc] at h
    simp only [List.cons_append, List.cons.injEq] at h
    rw [← h.1] at hdigit
    exact absurd hdigit (by decide)
  · exfalso
    obtain ⟨c, rest, hc, hdigit⟩ := renderNat_head m.natAbs
    rw [hc] at h
    simp only [List.cons_append, List.cons.injEq] at h
    rw [h.1] at hdigit
    exact absurd hdigit (by decide)
  · obtain ⟨habs, hrest⟩ := renderNat_append hs ht h
    exact ⟨by omega, hrest⟩

private def kind : Json → Nat
  | .null => 0
  | .bool true => 1
  | .bool false => 2
  | .int _ => 3
  | .str _ => 4
  | .arr _ => 5
  | .obj _ => 6

/-- The kind of value a first character announces. -/
private def kindOfHead (c : Char) : Nat :=
  if c = 'n' then 0
  else if c = 't' then 1
  else if c = 'f' then 2
  else if c = '-' ∨ c.isDigit = true then 3
  else if c = '"' then 4
  else if c = '[' then 5
  else if c = '{' then 6
  else 7

private theorem kindOfHead_int {c : Char} (h : c = '-' ∨ c.isDigit = true) : kindOfHead c = 3 := by
  have hn : c ≠ 'n' := by rintro rfl; simp at h
  have ht : c ≠ 't' := by rintro rfl; simp at h
  have hf : c ≠ 'f' := by rintro rfl; simp at h
  rw [kindOfHead, if_neg hn, if_neg ht, if_neg hf, if_pos h]

private theorem render_head (a : Json) : ∃ c rest, a.render = c :: rest ∧ kindOfHead c = kind a := by
  cases a with
  | null => exact ⟨'n', _, by rw [render], rfl⟩
  | bool b => cases b <;> exact ⟨_, _, by rw [render], rfl⟩
  | int n =>
      obtain ⟨c, rest, hc, hlead⟩ := renderInt_head n
      exact ⟨c, rest, by rw [render, hc], kindOfHead_int hlead⟩
  | str s => exact ⟨'"', _, by rw [render, renderString], rfl⟩
  | arr items => cases items <;> exact ⟨'[', _, by rw [render], rfl⟩
  | obj members => cases members <;> exact ⟨'{', _, by rw [render], rfl⟩

private theorem render_kind {a b : Json} {s t : List Char} (h : a.render ++ s = b.render ++ t) :
    kind a = kind b := by
  obtain ⟨c, rest, hc, hkind⟩ := render_head a
  obtain ⟨d, rest', hd, hkind'⟩ := render_head b
  rw [hc, hd, List.cons_append, List.cons_append, List.cons.injEq] at h
  rw [← hkind, ← hkind', h.1]

private theorem render_ne_close (a : Json) {c : Char} (s t : List Char) (hc : kindOfHead c = 7) :
    a.render ++ s ≠ c :: t := by
  intro h
  obtain ⟨d, rest, hd, hkind⟩ := render_head a
  rw [hd, List.cons_append, List.cons.injEq] at h
  rw [h.1, hc] at hkind
  cases a with
  | bool b => cases b <;> simp [kind] at hkind
  | _ => simp [kind] at hkind

theorem renderItems_delimited (items : List Json) (s : List Char) :
    Delimited (renderItems items ++ s) := by
  intro c hc
  cases items with
  | nil => simp [renderItems] at hc; simp [← hc]
  | cons a rest => simp [renderItems] at hc; simp [← hc]

theorem renderMembers_delimited (members : List (String × Json)) (s : List Char) :
    Delimited (renderMembers members ++ s) := by
  intro c hc
  cases members with
  | nil => simp [renderMembers] at hc; simp [← hc]
  | cons a rest => obtain ⟨key, value⟩ := a; simp [renderMembers] at hc; simp [← hc]

mutual

private theorem render_append : ∀ (a b : Json) {s t : List Char}, Delimited s → Delimited t →
    a.render ++ s = b.render ++ t → a = b ∧ s = t
  | .null, b, s, t, _, _, h => by
      have hk := render_kind h
      cases b with
      | null => exact ⟨rfl, by simpa [render] using h⟩
      | bool b => cases b <;> simp [kind] at hk
      | _ => simp [kind] at hk
  | .bool a, b, s, t, _, _, h => by
      have hk := render_kind h
      cases b with
      | bool b =>
          cases a <;> cases b <;> simp [kind] at hk <;> exact ⟨rfl, by simpa [render] using h⟩
      | _ => cases a <;> simp [kind] at hk
  | .int n, b, s, t, hs, ht, h => by
      have hk := render_kind h
      cases b with
      | int m =>
          simp only [render] at h
          obtain ⟨rfl, rfl⟩ := renderInt_append hs.not_digit ht.not_digit h
          exact ⟨rfl, rfl⟩
      | bool b => cases b <;> simp [kind] at hk
      | _ => simp [kind] at hk
  | .str a, b, s, t, _, _, h => by
      have hk := render_kind h
      cases b with
      | str b =>
          simp only [render] at h
          obtain ⟨rfl, rfl⟩ := renderString_append h
          exact ⟨rfl, rfl⟩
      | bool b => cases b <;> simp [kind] at hk
      | _ => simp [kind] at hk
  | .arr as, b, s, t, _, _, h => by
      have hk := render_kind h
      cases b with
      | arr bs =>
          cases as with
          | nil =>
              cases bs with
              | nil => exact ⟨rfl, by simpa [render] using h⟩
              | cons y ys =>
                  simp only [render, List.cons_append, List.nil_append, List.cons.injEq, true_and,
                    List.append_assoc] at h
                  exact absurd h.symm (render_ne_close y _ _ rfl)
          | cons x xs =>
              cases bs with
              | nil =>
                  simp only [render, List.cons_append, List.nil_append, List.cons.injEq, true_and,
                    List.append_assoc] at h
                  exact absurd h (render_ne_close x _ _ rfl)
              | cons y ys =>
                  simp only [render, List.cons_append, List.cons.injEq, true_and,
                    List.append_assoc] at h
                  obtain ⟨rfl, hrest⟩ := render_append x y (renderItems_delimited xs s)
                    (renderItems_delimited ys t) h
                  obtain ⟨rfl, rfl⟩ := renderItems_append xs ys hrest
                  exact ⟨rfl, rfl⟩
      | bool b => cases b <;> simp [kind] at hk
      | _ => simp [kind] at hk
  | .obj as, b, s, t, _, _, h => by
      have hk := render_kind h
      cases b with
      | obj bs =>
          match as, bs, h with
          | [], [], h => exact ⟨rfl, by simpa [render] using h⟩
          | [], (k, v) :: ms, h => simp [render, renderString] at h
          | (k, v) :: ms, [], h => simp [render, renderString] at h
          | (k, v) :: ms, (k', v') :: ms', h =>
              simp only [render, List.cons_append, List.cons.injEq, true_and,
                List.append_assoc] at h
              obtain ⟨rfl, hvalue⟩ := renderString_append h
              simp only [List.cons.injEq, true_and] at hvalue
              obtain ⟨rfl, hrest⟩ := render_append v v' (renderMembers_delimited ms s)
                (renderMembers_delimited ms' t) hvalue
              obtain ⟨rfl, rfl⟩ := renderMembers_append ms ms' hrest
              exact ⟨rfl, rfl⟩
      | bool b => cases b <;> simp [kind] at hk
      | _ => simp [kind] at hk

private theorem renderItems_append : ∀ (as bs : List Json) {s t : List Char},
    renderItems as ++ s = renderItems bs ++ t → as = bs ∧ s = t
  | [], [], s, t, h => ⟨rfl, by simpa [renderItems] using h⟩
  | [], b :: bs, s, t, h => by simp [renderItems] at h
  | a :: as, [], s, t, h => by simp [renderItems] at h
  | a :: as, b :: bs, s, t, h => by
      simp only [renderItems, List.cons_append, List.cons.injEq, true_and, List.append_assoc] at h
      obtain ⟨rfl, hrest⟩ := render_append a b (renderItems_delimited as s)
        (renderItems_delimited bs t) h
      obtain ⟨rfl, rfl⟩ := renderItems_append as bs hrest
      exact ⟨rfl, rfl⟩

private theorem renderMembers_append : ∀ (as bs : List (String × Json)) {s t : List Char},
    renderMembers as ++ s = renderMembers bs ++ t → as = bs ∧ s = t
  | [], [], s, t, h => ⟨rfl, by simpa [renderMembers] using h⟩
  | [], (k, v) :: bs, s, t, h => by simp [renderMembers] at h
  | (k, v) :: as, [], s, t, h => by simp [renderMembers] at h
  | (k, v) :: as, (k', v') :: bs, s, t, h => by
      simp only [renderMembers, List.cons_append, List.cons.injEq, true_and,
        List.append_assoc] at h
      obtain ⟨rfl, hvalue⟩ := renderString_append h
      simp only [List.cons.injEq, true_and] at hvalue
      obtain ⟨rfl, hrest⟩ := render_append v v' (renderMembers_delimited as s)
        (renderMembers_delimited bs t) hvalue
      obtain ⟨rfl, rfl⟩ := renderMembers_append as bs hrest
      exact ⟨rfl, rfl⟩

end

/-- **The writer is injective**: a text names at most one value. -/
theorem render_injective {a b : Json} (h : a.render = b.render) : a = b := by
  have hnil : Delimited [] := by intro c hc; simp at hc
  refine (render_append a b hnil hnil ?_).1
  rw [List.append_nil, List.append_nil]
  exact h

end Json

end Evleda
