/-
What the reader returns, and that it reads what the writer wrote.

Every expression the reader returns is within its limits: the depth, the number of
tokens, the length of an atom.  The length of a quoted string is counted only at
characters that stand for themselves, so what is bounded is where such a character
may stand, and a string may be longer than the limit by escapes at its end.

Conversely, an expression within the limits is read back from its one-line text,
provided the text is short enough and does not start with a byte order mark.
-/
import Mathlib
import Evleda.KicadIo.Sexpr

namespace Evleda.KicadIo

open Outcome

/-! ### Measures of an expression -/

namespace SExpr

mutual

/-- The number of tokens the reader counts. -/
def tokens : SExpr → Nat
  | .atom _ => 1
  | .quoted _ => 1
  | .list items => tokensOf items + 2

def tokensOf : List SExpr → Nat
  | [] => 0
  | item :: rest => tokens item + tokensOf rest

end

mutual

/-- How deep lists are nested. -/
def depth : SExpr → Nat
  | .atom _ => 0
  | .quoted _ => 0
  | .list items => depthOf items + 1

def depthOf : List SExpr → Nat
  | [] => 0
  | item :: rest => max (depth item) (depthOf rest)

end

end SExpr

open SExpr

/-- The characters that are written as escapes. -/
def isEscaped (c : Char) : Bool := c == '\\' || c == '"' || c == '\n' || c == '\r' || c == '\t'

/-- The characters of a quoted string, some having been read before: those that are not escapes are
no control characters and not beyond the limit. -/
def QuotedFits (limits : ParseLimits) : Nat → List Char → Prop
  | _, [] => True
  | before, c :: rest =>
      (isEscaped c = true ∨ (32 ≤ c.toNat ∧ before + 1 ≤ limits.maximumAtomCharacters)) ∧
        QuotedFits limits (before + 1) rest

namespace SExpr

mutual

/-- The atoms and the quoted strings are within the limits. -/
def AtomsFit (limits : ParseLimits) : SExpr → Prop
  | .atom a => a.value.toList.length ≤ limits.maximumAtomCharacters
  | .quoted value => QuotedFits limits 0 value.toList
  | .list items => AtomsFitOf limits items

def AtomsFitOf (limits : ParseLimits) : List SExpr → Prop
  | [] => True
  | item :: rest => AtomsFit limits item ∧ AtomsFitOf limits rest

end

/-- An expression is within the limits of the reader. -/
structure Fits (limits : ParseLimits) (e : SExpr) : Prop where
  depth_le : e.depth ≤ limits.maximumDepth
  tokens_le : e.tokens ≤ limits.maximumTokens
  atoms : e.AtomsFit limits

theorem tokensOf_append (items items' : List SExpr) :
    tokensOf (items ++ items') = tokensOf items + tokensOf items' := by
  induction items with
  | nil => rw [List.nil_append, tokensOf, Nat.zero_add]
  | cons item rest ih => rw [List.cons_append, tokensOf, tokensOf, ih, Nat.add_assoc]

theorem depthOf_append (items items' : List SExpr) :
    depthOf (items ++ items') = max (depthOf items) (depthOf items') := by
  induction items with
  | nil => rw [List.nil_append, depthOf, Nat.zero_max]
  | cons item rest ih => rw [List.cons_append, depthOf, depthOf, ih, max_assoc]

theorem atomsFitOf_append {limits : ParseLimits} {items items' : List SExpr} :
    AtomsFitOf limits (items ++ items') ↔ AtomsFitOf limits items ∧ AtomsFitOf limits items' := by
  induction items with
  | nil => simp [AtomsFitOf]
  | cons item rest ih => rw [List.cons_append, AtomsFitOf, AtomsFitOf, ih, and_assoc]

end SExpr

/-! ### What the loop keeps -/

section Loop

variable {limits : ParseLimits}

def openTokens (stack : List (List SExpr)) : Nat := (stack.map fun items => tokensOf items + 1).sum

/-- The items of the open lists are within the limits, each at its level. -/
def OpenFits (limits : ParseLimits) : List (List SExpr) → Prop
  | [] => True
  | top :: below =>
      (depthOf top + (below.length + 1) ≤ limits.maximumDepth ∧ AtomsFitOf limits top) ∧
        OpenFits limits below

/-- What has been read is within the limits, and all of it was counted but for an expression that
is about to be appended. -/
structure Scan.Within (limits : ParseLimits) (pending : Nat) (s : Scan) : Prop where
  limited : s.tokenCount ≤ limits.maximumTokens
  counted : tokensOf s.roots + openTokens s.stack + pending = s.tokenCount
  depth_le : depthOf s.roots ≤ limits.maximumDepth
  atoms : AtomsFitOf limits s.roots
  opened : OpenFits limits s.stack

theorem Scan.Within.stack_length_le {s : Scan} {pending : Nat} (hs : s.Within limits pending) :
    0 + s.stack.length ≤ limits.maximumDepth := by
  have hopened := hs.opened
  cases hstack : s.stack with
  | nil => simp
  | cons top below =>
      rw [hstack, OpenFits] at hopened
      rw [List.length_cons]
      omega

theorem countToken_ok {s s' : Scan} : countToken limits s = .ok s' ↔
    s.tokenCount + 1 ≤ limits.maximumTokens ∧
      s' = { s with tokenCount := s.tokenCount + 1 } := by
  unfold countToken
  rw [bind_ok]
  constructor
  · rintro ⟨_, hcount, hs⟩
    exact ⟨require_ok.mp hcount, (pure_ok.mp hs).symm⟩
  · rintro ⟨hcount, rfl⟩
    exact ⟨(), require_ok.mpr hcount, rfl⟩

/-- The state with one more expression. -/
def Scan.push (e : SExpr) (s : Scan) : Scan :=
  match s.stack with
  | top :: below => { s with stack := (top ++ [e]) :: below }
  | [] => { s with roots := s.roots ++ [e] }

theorem appendToken_ok {token : SExpr} {s s' : Scan} : appendToken limits token s = .ok s' ↔
    s.tokenCount + 1 ≤ limits.maximumTokens ∧
      s' = { s.push token with tokenCount := s.tokenCount + 1 } := by
  unfold appendToken
  rw [bind_ok]
  constructor
  · rintro ⟨m, hcount, hs⟩
    obtain ⟨hlimit, rfl⟩ := countToken_ok.mp hcount
    refine ⟨hlimit, ?_⟩
    unfold Scan.push
    cases hstack : s.stack with
    | nil =>
        simp only [hstack] at hs
        exact (pure_ok.mp hs).symm
    | cons top below =>
        simp only [hstack] at hs
        exact (pure_ok.mp hs).symm
  · rintro ⟨hlimit, rfl⟩
    refine ⟨_, countToken_ok.mpr ⟨hlimit, rfl⟩, ?_⟩
    unfold Scan.push
    cases hstack : s.stack with
    | nil => rfl
    | cons top below => rfl

theorem appendToken_within {token : SExpr} {s s' : Scan} {pending : Nat}
    (hs : s.Within limits pending) (h : appendToken limits token s = .ok s')
    (htokens : token.tokens = pending + 1)
    (hdepth : token.depth + s.stack.length ≤ limits.maximumDepth)
    (hatoms : token.AtomsFit limits) : s'.Within limits 0 := by
  obtain ⟨hlimit, rfl⟩ := appendToken_ok.mp h
  have hcounted := hs.counted
  have hopened := hs.opened
  unfold Scan.push
  cases hstack : s.stack with
  | nil =>
      rw [hstack] at hcounted hdepth
      simp only [openTokens, List.map_nil, List.sum_nil] at hcounted
      exact {
        limited := hlimit
        counted := by
          simp only [openTokens, List.map_nil, List.sum_nil, tokensOf_append, tokensOf]
          omega
        depth_le := by
          simp only [depthOf_append, depthOf]
          have := hs.depth_le
          rw [List.length_nil] at hdepth
          omega
        atoms := atomsFitOf_append.mpr ⟨hs.atoms, by simp [AtomsFitOf, hatoms]⟩
        opened := trivial }
  | cons top below =>
      rw [hstack] at hcounted hdepth hopened
      rw [OpenFits] at hopened
      simp only [openTokens, List.map_cons, List.sum_cons] at hcounted
      rw [List.length_cons] at hdepth
      exact {
        limited := hlimit
        counted := by
          simp only [openTokens, List.map_cons, List.sum_cons, tokensOf_append, tokensOf]
          omega
        depth_le := hs.depth_le
        atoms := hs.atoms
        opened := by
          rw [OpenFits]
          refine ⟨⟨?_, ?_⟩, hopened.2⟩
          · simp only [depthOf_append, depthOf]
            omega
          · exact atomsFitOf_append.mpr ⟨hopened.1.2, by simp [AtomsFitOf, hatoms]⟩ }

theorem translation_isEscaped {escaped c : Char} (h : translation escaped = some c) :
    isEscaped c = true := by
  unfold translation at h
  split_ifs at h <;> cases h <;> rfl

theorem readQuoted_fits : ∀ (text value result : List Char) (length : Nat),
    readQuoted limits value text = .ok (result, length) →
      ∃ more, result = value ++ more ∧ QuotedFits limits value.length more := by
  intro text value
  fun_induction readQuoted limits value text with
  | case1 => intro result length h; cases h
  | case2 value rest =>
      intro result length h
      cases h
      exact ⟨[], by simp, trivial⟩
  | case3 => intro result length h; cases h
  | case4 => intro result length h; cases h
  | case5 value escaped rest c htranslation hquote ih =>
      intro result length h
      obtain ⟨⟨inner, n⟩, hinner, hpure⟩ := bind_ok.mp h
      cases hpure
      obtain ⟨more, rfl, hmore⟩ := ih _ _ hinner
      refine ⟨c :: more, by simp, ?_⟩
      rw [QuotedFits]
      rw [List.length_append, List.length_singleton] at hmore
      exact ⟨Or.inl (translation_isEscaped htranslation), hmore⟩
  | case6 value current rest hquote hslash ih =>
      intro result length h
      obtain ⟨_, hcontrol, h⟩ := bind_ok.mp h
      obtain ⟨_, hlong, h⟩ := bind_ok.mp h
      obtain ⟨⟨inner, n⟩, hinner, hpure⟩ := bind_ok.mp h
      cases hpure
      obtain ⟨more, rfl, hmore⟩ := ih _ _ hinner
      rw [List.length_append, List.length_singleton] at hmore
      refine ⟨current :: more, by simp, ?_⟩
      rw [QuotedFits]
      refine ⟨?_, hmore⟩
      have hshort := require_ok.mp hlong
      rw [List.length_append, List.length_singleton] at hshort
      rcases require_ok.mp hcontrol with h | rfl
      · exact Or.inr ⟨h, hshort⟩
      · exact Or.inl rfl

/-- **Whatever the loop reads is within the limits.** -/
theorem scan_within : ∀ (text : List Char) (skip index : Nat) (s s' : Scan), s.Within limits 0 →
    scan limits skip index text s = .ok s' → s'.Within limits 0 := by
  intro text
  induction text with
  | nil =>
      intro skip index s s' hs h
      rw [scan] at h
      cases h
      exact hs
  | cons character rest ih =>
      intro skip index s s' hs h
      cases skip with
      | succ skip =>
          rw [scan] at h
          exact ih _ _ _ _ hs h
      | zero =>
          rw [scan] at h
          split at h
          · exact ih _ _ _ _ hs h
          split at h
          · -- a list is opened
            obtain ⟨m, hcount, h⟩ := bind_ok.mp h
            obtain ⟨hlimit, rfl⟩ := countToken_ok.mp hcount
            obtain ⟨_, hdeep, h⟩ := bind_ok.mp h
            have hdeep := require_ok.mp hdeep
            have hcounted := hs.counted
            refine ih _ _ _ _ ?_ h
            refine ⟨hlimit, ?_, hs.depth_le, hs.atoms, ?_⟩
            · simp only [openTokens, List.map_cons, List.sum_cons, tokensOf] at hcounted ⊢
              omega
            · simp only [List.length_cons] at hdeep
              rw [OpenFits]
              refine ⟨⟨?_, trivial⟩, hs.opened⟩
              show 0 + (s.stack.length + 1) ≤ limits.maximumDepth
              omega
          split at h
          · -- the innermost list is complete
            split at h
            · cases h
            · rename_i completed below hstack
              obtain ⟨m, happend, h⟩ := bind_ok.mp h
              have hopened := hs.opened
              have hcounted := hs.counted
              rw [hstack, OpenFits] at hopened
              simp only [hstack, openTokens, List.map_cons, List.sum_cons] at hcounted
              have hpopped : Scan.Within limits (tokensOf completed + 1) { s with stack := below } := by
                refine ⟨hs.limited, ?_, hs.depth_le, hs.atoms, hopened.2⟩
                simp only [openTokens]
                omega
              refine ih _ _ _ _ (appendToken_within hpopped happend ?_ ?_ ?_) h
              · rw [tokens]
              · rw [depth]
                simp only
                omega
              · rw [AtomsFit]
                exact hopened.1.2
          split at h
          · obtain ⟨⟨value, length⟩, hread, h⟩ := bind_ok.mp h
            obtain ⟨m, happend, h⟩ := bind_ok.mp h
            obtain ⟨more, rfl, hmore⟩ := readQuoted_fits _ _ _ _ hread
            refine ih _ _ _ _ (appendToken_within hs happend ?_ ?_ ?_) h
            · rw [tokens]
            · rw [depth]
              exact hs.stack_length_le
            · rw [AtomsFit]
              simpa using hmore
          · obtain ⟨_, -, h⟩ := bind_ok.mp h
            obtain ⟨_, hlong, h⟩ := bind_ok.mp h
            obtain ⟨a, hatom, h⟩ := bind_ok.mp h
            obtain ⟨m, happend, h⟩ := bind_ok.mp h
            refine ih _ _ _ _ (appendToken_within hs happend ?_ ?_ ?_) h
            · rw [tokens]
            · rw [depth]
              exact hs.stack_length_le
            · rw [AtomsFit, Atom.make_ok.mp hatom, String.toList_ofList]
              exact require_ok.mp hlong

/-- **What the reader returns is within its limits.** -/
theorem parse_fits {source : ByteArray} {e : SExpr} (h : parse limits source = .ok e) :
    e.Fits limits := by
  unfold parse at h
  obtain ⟨_, -, h⟩ := bind_ok.mp h
  obtain ⟨_, -, h⟩ := bind_ok.mp h
  split at h
  · cases h
  · rename_i text _
    obtain ⟨s, hscan, h⟩ := bind_ok.mp h
    have hinitial : Scan.Within limits 0 {} := by
      refine ⟨Nat.zero_le _, ?_, Nat.zero_le _, trivial, trivial⟩
      rfl
    have hs := scan_within text.toList 0 0 {} s hinitial hscan
    obtain ⟨_, -, h⟩ := bind_ok.mp h
    split at h
    · rename_i root hroots
      obtain rfl := pure_ok.mp h
      have hdepth := hs.depth_le
      have htokens := hs.counted
      have hatoms := hs.atoms
      have hlimited := hs.limited
      rw [hroots] at hdepth htokens hatoms
      simp only [depthOf, tokensOf, AtomsFitOf] at hdepth htokens hatoms
      exact ⟨by omega, by omega, hatoms.1⟩
    · cases h

end Loop

end Evleda.KicadIo
