/-
The limits of the reader, and the one it does not keep.

The size of the source, the number of tokens and the depth are checked where they
grow, and an atom is measured before it is made.  A quoted string is measured while
it is read, but only at a character that stands for itself: an escape is appended and
skipped without a look at the length.  So a string becomes longer than the limit
exactly when an escape stands in it after as many characters as the limit allows.
Whether one does can be said of the text alone.

The loop is written here once more the way the source has it, as a loop over an index.
-/
import Evleda.KicadIo.RoundTrips

namespace Evleda.KicadIo

open SExpr Outcome

/-! ### What the limits ask of a result -/

namespace SExpr

mutual

/-- No atom and no quoted string is longer than `limit`. -/
def AtomsWithin (limit : Nat) : SExpr → Prop
  | .atom a => a.value.toList.length ≤ limit
  | .quoted value => value.toList.length ≤ limit
  | .list items => AtomsWithinOf limit items

def AtomsWithinOf (limit : Nat) : List SExpr → Prop
  | [] => True
  | item :: rest => AtomsWithin limit item ∧ AtomsWithinOf limit rest

end

theorem atomsWithinOf_append {limit : Nat} {items items' : List SExpr} :
    AtomsWithinOf limit (items ++ items') ↔
      AtomsWithinOf limit items ∧ AtomsWithinOf limit items' := by
  induction items with
  | nil => simp [AtomsWithinOf]
  | cons item rest ih => rw [List.cons_append, AtomsWithinOf, AtomsWithinOf, ih, and_assoc]

end SExpr

/-- Every bound of the limits holds of a source and what was read from it. -/
structure Bounded (limits : ParseLimits) (source : ByteArray) (e : SExpr) : Prop where
  bytes : source.size ≤ limits.maximumBytes
  tokens : e.tokens ≤ limits.maximumTokens
  depth : e.depth ≤ limits.maximumDepth
  atoms : e.AtomsWithin limits.maximumAtomCharacters

/-! ### Escapes past the limit -/

/-- No escape stands in a quoted string after `limit` of its characters.  The walk carries the
number of characters of the string that is open. -/
def escapesWithin (limit : Nat) : Option Nat → List Char → Bool
  | _, [] => true
  | none, c :: rest =>
      if c = '"' then escapesWithin limit (some 0) rest else escapesWithin limit none rest
  | some n, c :: rest =>
      if c = '"' then escapesWithin limit none rest
      else if c = '\\' then
        match rest with
        | [] => true
        | _ :: rest => decide (n < limit) && escapesWithin limit (some (n + 1)) rest
      else escapesWithin limit (some (n + 1)) rest

/-- No escape of the source stands in a quoted string after as many characters as are allowed. -/
def EscapesWithin (limits : ParseLimits) (source : ByteArray) : Prop :=
  ∀ text, String.fromUTF8? source = some text →
    escapesWithin limits.maximumAtomCharacters none text.toList = true

theorem escapesWithin_atom (limit : Nat) (rest : List Char) :
    ∀ value : List Char, (∀ c ∈ value, endsAtom c = false) →
      escapesWithin limit none (value ++ rest) = escapesWithin limit none rest := by
  intro value
  induction value with
  | nil => intro _; rfl
  | cons c value ih =>
      intro hplain
      have hquote : c ≠ '"' := by
        rintro rfl
        exact absurd (hplain '"' (by simp)) (by decide)
      rw [List.cons_append, escapesWithin.eq_def]
      simp only [if_neg hquote]
      exact ih fun d hd => hplain d (by simp [hd])

section Reader

variable {limits : ParseLimits}

/-- **A quoted string is within the limit when no escape stands past it.** -/
theorem readQuoted_within : ∀ (value text result : List Char) (length : Nat),
    readQuoted limits value text = .ok (result, length) →
    value.length ≤ limits.maximumAtomCharacters →
      (escapesWithin limits.maximumAtomCharacters (some value.length) text = true ↔
        result.length ≤ limits.maximumAtomCharacters ∧
          escapesWithin limits.maximumAtomCharacters none (text.drop length) = true) ∧
        value.length ≤ result.length ∧ 1 ≤ length := by
  intro value text
  fun_induction readQuoted limits value text with
  | case1 => intro result length h; simp at h
  | case2 value rest =>
      intro result length h hvalue
      obtain ⟨rfl, rfl⟩ : value = result ∧ 1 = length := by simpa using h
      rw [escapesWithin.eq_def]
      simp [hvalue]
  | case3 => intro result length h; simp at h
  | case4 => intro result length h; simp at h
  | case5 value escaped rest c htranslation hquote ih =>
      intro result length h hvalue
      obtain ⟨⟨inner, n⟩, hinner, hpure⟩ := bind_ok.mp h
      obtain ⟨rfl, rfl⟩ : inner = result ∧ n + 2 = length := by simpa using pure_ok.mp hpure
      have hstep : escapesWithin limits.maximumAtomCharacters (some value.length)
          ('\\' :: escaped :: rest) = (decide (value.length < limits.maximumAtomCharacters) &&
            escapesWithin limits.maximumAtomCharacters (some (value.length + 1)) rest) := by
        rw [escapesWithin.eq_def]
        simp
      by_cases hroom : value.length < limits.maximumAtomCharacters
      · obtain ⟨hiff, hgrown, -⟩ := ih inner n hinner (by simp; omega)
        simp only [List.length_append, List.length_singleton] at hiff hgrown
        rw [hstep, decide_eq_true hroom, Bool.true_and]
        refine ⟨?_, by omega, by omega⟩
        simpa using hiff
      · -- the string is full, so one more character is one too many
        have hgrown : value.length + 1 ≤ inner.length := by
          obtain ⟨more, hmore, -⟩ := readQuoted_fits _ _ _ _ hinner
          rw [hmore]
          simp
        rw [hstep, decide_eq_false hroom, Bool.false_and]
        refine ⟨?_, by omega, by omega⟩
        simp only [Bool.false_eq_true, false_iff, not_and]
        intro hshort
        omega
  | case6 value current rest hquote hslash ih =>
      intro result length h hvalue
      obtain ⟨_, -, h⟩ := bind_ok.mp h
      obtain ⟨_, hlong, h⟩ := bind_ok.mp h
      obtain ⟨⟨inner, n⟩, hinner, hpure⟩ := bind_ok.mp h
      obtain ⟨rfl, rfl⟩ : inner = result ∧ n + 1 = length := by simpa using pure_ok.mp hpure
      have hshort := require_ok.mp hlong
      obtain ⟨hiff, hgrown, -⟩ := ih inner n hinner hshort
      simp only [List.length_append, List.length_singleton] at hiff hgrown
      have hstep : escapesWithin limits.maximumAtomCharacters (some value.length)
          (current :: rest) =
            escapesWithin limits.maximumAtomCharacters (some (value.length + 1)) rest := by
        rw [escapesWithin.eq_def]
        simp [hquote, hslash]
      rw [hstep]
      refine ⟨?_, by omega, by omega⟩
      simpa using hiff

/-! ### What the loop keeps of it -/

/-- The atoms and strings read so far are within the limit. -/
def Scan.AtomsWithin (limit : Nat) (s : Scan) : Prop :=
  AtomsWithinOf limit s.roots ∧ ∀ items ∈ s.stack, AtomsWithinOf limit items

theorem Scan.atomsWithin_push {limit : Nat} {e : SExpr} {s : Scan} (count : Nat) :
    Scan.AtomsWithin limit { s.push e with tokenCount := count } ↔
      s.AtomsWithin limit ∧ e.AtomsWithin limit := by
  unfold Scan.AtomsWithin Scan.push
  cases hstack : s.stack with
  | nil => simp [atomsWithinOf_append, AtomsWithinOf]
  | cons top below =>
      simp only [List.mem_cons, forall_eq_or_imp, atomsWithinOf_append, AtomsWithinOf, and_true]
      tauto

theorem appendToken_atomsWithin {limit : Nat} {token : SExpr} {s s' : Scan}
    (h : appendToken limits token s = .ok s') :
    s'.AtomsWithin limit ↔ s.AtomsWithin limit ∧ token.AtomsWithin limit := by
  obtain ⟨-, rfl⟩ := appendToken_ok.mp h
  exact Scan.atomsWithin_push _

/-- **The loop keeps the limit exactly when no escape stands past it.**  The induction is on the
length of the text, because a string or an atom is jumped over. -/
theorem scan_atomsWithin : ∀ (size : Nat) (text : List Char) (index : Nat) (s s' : Scan),
    text.length ≤ size → scan limits 0 index text s = .ok s' →
      (s'.AtomsWithin limits.maximumAtomCharacters ↔
        s.AtomsWithin limits.maximumAtomCharacters ∧
          escapesWithin limits.maximumAtomCharacters none text = true) := by
  intro size
  induction size with
  | zero =>
      intro text index s s' hsize h
      obtain rfl : text = [] := by simpa using hsize
      rw [scan] at h
      obtain rfl := Except.ok.inj h
      simp [escapesWithin]
  | succ size ih =>
      intro text index s s' hsize h
      cases text with
      | nil =>
          rw [scan] at h
          obtain rfl := Except.ok.inj h
          simp [escapesWithin]
      | cons character rest =>
          rw [List.length_cons] at hsize
          rw [scan] at h
          by_cases hquote : character = '"'
          · -- a string: read up to its closing quote, then the rest
            subst hquote
            rw [if_neg (by decide), if_neg (by decide), if_neg (by decide), if_pos rfl] at h
            obtain ⟨⟨value, length⟩, hread, h⟩ := bind_ok.mp h
            obtain ⟨m, happend, h⟩ := bind_ok.mp h
            obtain ⟨hiff, -, hlength⟩ := readQuoted_within [] rest value length hread (by simp)
            rw [scan_skip] at h
            have hrest := ih (rest.drop length) _ m s' (by simp; omega) h
            rw [hrest, appendToken_atomsWithin happend]
            have hopen : escapesWithin limits.maximumAtomCharacters none ('"' :: rest) =
                escapesWithin limits.maximumAtomCharacters (some 0) rest := by
              rw [escapesWithin.eq_def]
              simp
            rw [hopen]
            rw [List.length_nil] at hiff
            rw [hiff, SExpr.AtomsWithin, String.toList_ofList]
            tauto
          have hpass : escapesWithin limits.maximumAtomCharacters none (character :: rest) =
              escapesWithin limits.maximumAtomCharacters none rest := by
            rw [escapesWithin.eq_def]
            simp [hquote]
          rw [hpass]
          by_cases hspace : Text.isSpace character = true
          · rw [if_pos hspace] at h
            exact ih rest _ s s' (by omega) h
          rw [if_neg hspace] at h
          by_cases hopen : character = '('
          · rw [if_pos hopen] at h
            obtain ⟨m, hcount, h⟩ := bind_ok.mp h
            obtain ⟨-, rfl⟩ := countToken_ok.mp hcount
            obtain ⟨_, -, h⟩ := bind_ok.mp h
            rw [ih rest _ _ s' (by omega) h]
            simp [Scan.AtomsWithin, AtomsWithinOf]
          rw [if_neg hopen] at h
          by_cases hclose : character = ')'
          · rw [if_pos hclose] at h
            cases hstack : s.stack with
            | nil => simp [hstack] at h
            | cons completed below =>
                simp only [hstack] at h
                obtain ⟨m, happend, h⟩ := bind_ok.mp h
                rw [ih rest _ m s' (by omega) h, appendToken_atomsWithin happend]
                simp only [Scan.AtomsWithin, SExpr.AtomsWithin, hstack, List.mem_cons,
                  forall_eq_or_imp]
                tauto
          rw [if_neg hclose, if_neg hquote] at h
          obtain ⟨_, -, h⟩ := bind_ok.mp h
          obtain ⟨_, hlong, h⟩ := bind_ok.mp h
          obtain ⟨a, hatom, h⟩ := bind_ok.mp h
          obtain ⟨m, happend, h⟩ := bind_ok.mp h
          have hplain : endsAtom character = false := by
            simp [endsAtom, isReserved, hspace, hopen, hclose, hquote]
          have htake : (character :: rest).takeWhile (fun c => !endsAtom c) =
              character :: rest.takeWhile (fun c => !endsAtom c) := by
            rw [List.takeWhile_cons_of_pos (by simp [hplain])]
          have hsplit : rest.takeWhile (fun c => !endsAtom c) ++
              rest.drop (rest.takeWhile (fun c => !endsAtom c)).length = rest :=
            List.prefix_iff_eq_append.mp (List.takeWhile_prefix _)
          rw [htake, List.length_cons, Nat.add_sub_cancel, scan_skip] at h
          rw [ih _ _ m s' (by simp; omega) h, appendToken_atomsWithin happend, SExpr.AtomsWithin,
            Atom.make_ok.mp hatom, String.toList_ofList]
          have hshort := require_ok.mp hlong
          have hescapes := escapesWithin_atom limits.maximumAtomCharacters
            (rest.drop (rest.takeWhile (fun c => !endsAtom c)).length)
            (rest.takeWhile (fun c => !endsAtom c))
            (fun c hc => by simpa using List.mem_takeWhile_imp hc)
          rw [hsplit] at hescapes
          rw [hescapes]
          tauto

/-! ### The loop over an index -/

/-- One pass of the loop: how many characters it read, and what has been read then. -/
def pass (limits : ParseLimits) (index : Nat) (character : Char) (rest : List Char) (s : Scan) :
    Except Failure (Nat × Scan) :=
  if Text.isSpace character then .ok (1, s)
  else if character = '(' then do
    let s ← countToken limits s
    let s := { s with stack := [] :: s.stack }
    require (s.stack.length ≤ limits.maximumDepth)
      (.syntaxError ("KiCad source exceeds the " ++ toString limits.maximumDepth ++
        "-level nesting limit"))
    return (1, s)
  else if character = ')' then
    match s.stack with
    | [] => .error (.syntaxError ("unexpected ')' at character " ++ toString index))
    | completed :: below => do
        let s ← appendToken limits (.list completed) { s with stack := below }
        return (1, s)
  else if character = '"' then do
    let (value, length) ← readQuoted limits [] rest
    let s ← appendToken limits (.quoted (String.ofList value)) s
    return (length + 1, s)
  else do
    let value := (character :: rest).takeWhile (fun c => !endsAtom c)
    require (value ≠ []) (.syntaxError ("invalid character at offset " ++ toString index))
    require (value.length ≤ limits.maximumAtomCharacters)
      (.syntaxError "atom exceeds the parser character limit")
    let atom ← Atom.make (String.ofList value)
    let s ← appendToken limits (.atom atom) s
    return (value.length, s)

/-- `while index < len(text)`, for as many passes as there is fuel; nothing if they do not do. -/
def loop (limits : ParseLimits) : Nat → Nat → List Char → Scan → Except Failure (Option Scan)
  | _, _, [], s => .ok (some s)
  | 0, _, _ :: _, _ => .ok none
  | fuel + 1, index, character :: rest, s => do
      let (length, s) ← pass limits index character rest s
      loop limits fuel (index + length) ((character :: rest).drop length) s

theorem scan_eq_pass (index : Nat) (character : Char) (rest : List Char) (s : Scan) :
    (∀ length s', pass limits index character rest s = .ok (length, s') → 1 ≤ length) ∧
      scan limits 0 index (character :: rest) s =
        pass limits index character rest s >>= fun read =>
          scan limits 0 (index + read.1) ((character :: rest).drop read.1) read.2 := by
  unfold pass
  rw [scan]
  by_cases hspace : Text.isSpace character = true
  · rw [if_pos hspace, if_pos hspace]
    exact ⟨by simp, rfl⟩
  rw [if_neg hspace, if_neg hspace]
  by_cases hopen : character = '('
  · rw [if_pos hopen, if_pos hopen]
    refine ⟨?_, ?_⟩
    · intro length s' h
      obtain ⟨_, -, h⟩ := bind_ok.mp h
      obtain ⟨_, -, h⟩ := bind_ok.mp h
      obtain ⟨rfl, -⟩ : 1 = length ∧ _ = s' := by simpa using pure_ok.mp h
      omega
    · cases countToken limits s with
      | error e => rfl
      | ok m =>
          show (require _ _ >>= _) = (require _ _ >>= _) >>= _
          cases require (([] :: m.stack).length ≤ limits.maximumDepth) _ with
          | error e => rfl
          | ok u => rfl
  rw [if_neg hopen, if_neg hopen]
  by_cases hclose : character = ')'
  · rw [if_pos hclose, if_pos hclose]
    cases s.stack with
    | nil => exact ⟨by simp, rfl⟩
    | cons completed below =>
        refine ⟨?_, ?_⟩
        · intro length s' h
          obtain ⟨_, -, h⟩ := bind_ok.mp h
          obtain ⟨rfl, -⟩ : 1 = length ∧ _ = s' := by simpa using pure_ok.mp h
          omega
        · show (appendToken _ _ _ >>= _) = (appendToken _ _ _ >>= _) >>= _
          cases appendToken limits (.list completed) { s with stack := below } with
          | error e => rfl
          | ok m => rfl
  rw [if_neg hclose, if_neg hclose]
  by_cases hquote : character = '"'
  · rw [if_pos hquote, if_pos hquote]
    refine ⟨?_, ?_⟩
    · intro length s' h
      obtain ⟨⟨value, n⟩, -, h⟩ := bind_ok.mp h
      obtain ⟨_, -, h⟩ := bind_ok.mp h
      obtain ⟨rfl, -⟩ : n + 1 = length ∧ _ = s' := by simpa using pure_ok.mp h
      omega
    · cases readQuoted limits [] rest with
      | error e => rfl
      | ok read =>
          obtain ⟨value, n⟩ := read
          show (appendToken _ _ _ >>= _) = (appendToken _ _ _ >>= _) >>= _
          cases appendToken limits (.quoted (String.ofList value)) s with
          | error e => rfl
          | ok m =>
              show scan limits n (index + 1) rest m =
                scan limits 0 (index + (n + 1)) (rest.drop n) m
              rw [scan_skip]
              congr 1
              omega
  rw [if_neg hquote, if_neg hquote]
  have hplain : endsAtom character = false := by
    simp [endsAtom, isReserved, hspace, hopen, hclose, hquote]
  have htake : (character :: rest).takeWhile (fun c => !endsAtom c) =
      character :: rest.takeWhile (fun c => !endsAtom c) := by
    rw [List.takeWhile_cons_of_pos (by simp [hplain])]
  simp only [htake]
  generalize rest.takeWhile (fun c => !endsAtom c) = value
  refine ⟨?_, ?_⟩
  · intro length s' h
    obtain ⟨_, -, h⟩ := bind_ok.mp h
    obtain ⟨_, -, h⟩ := bind_ok.mp h
    obtain ⟨_, -, h⟩ := bind_ok.mp h
    obtain ⟨_, -, h⟩ := bind_ok.mp h
    obtain ⟨rfl, -⟩ : (character :: value).length = length ∧ _ = s' := by
      simpa using pure_ok.mp h
    simp
  · cases require (character :: value ≠ []) (Failure.syntaxError ("invalid character at offset " ++
        toString index)) with
    | error e => rfl
    | ok _ =>
        show (require _ _ >>= _) = (require _ _ >>= _) >>= _
        cases require ((character :: value).length ≤ limits.maximumAtomCharacters) _ with
        | error e => rfl
        | ok _ =>
            show (Atom.make _ >>= _) = (Atom.make _ >>= _) >>= _
            cases Atom.make (String.ofList (character :: value)) with
            | error e => rfl
            | ok a =>
                show (appendToken _ _ _ >>= _) = (appendToken _ _ _ >>= _) >>= _
                cases appendToken limits (.atom a) s with
                | error e => rfl
                | ok m =>
                    show scan limits ((character :: value).length - 1) (index + 1) rest m =
                      scan limits 0 (index + (character :: value).length)
                        (rest.drop value.length) m
                    rw [scan_skip, List.length_cons, Nat.add_sub_cancel]
                    congr 1
                    omega

/-- **As many passes as there are characters are enough.** -/
theorem loop_eq_scan : ∀ (fuel index : Nat) (text : List Char) (s : Scan), text.length ≤ fuel →
    loop limits fuel index text s = some <$> scan limits 0 index text s := by
  intro fuel
  induction fuel with
  | zero =>
      intro index text s hfuel
      obtain rfl : text = [] := by simpa using hfuel
      rw [loop, scan]
      rfl
  | succ fuel ih =>
      intro index text s hfuel
      cases text with
      | nil =>
          rw [loop, scan]
          rfl
      | cons character rest =>
          rw [List.length_cons] at hfuel
          obtain ⟨hlength, hscan⟩ := @scan_eq_pass limits index character rest s
          rw [loop, hscan]
          cases hpass : pass limits index character rest s with
          | error e => rfl
          | ok read =>
              have hread := hlength read.1 read.2 hpass
              show loop limits fuel (index + read.1) ((character :: rest).drop read.1) read.2 =
                some <$> scan limits 0 (index + read.1) ((character :: rest).drop read.1) read.2
              exact ih _ _ _ (by simp; omega)

/-! ### The limits of what is read -/

/-- **The scan ends, and the limits hold of what is read exactly when no escape stands in a string
that is full.**  The loop is done after at most one pass for each character; its result then
meets all the bounds but perhaps that on quoted strings. -/
theorem reader_bounded_iff (limits : ParseLimits) (source : ByteArray) :
    (∀ text, String.fromUTF8? source = some text → ∀ fuel, text.toList.length ≤ fuel →
      loop limits fuel 0 text.toList {} = some <$> scan limits 0 0 text.toList {}) ∧
    ∀ e, parse limits source = .ok e → (Bounded limits source e ↔ EscapesWithin limits source) := by
  refine ⟨fun text _ fuel hfuel => loop_eq_scan fuel 0 text.toList {} hfuel, ?_⟩
  intro e h
  have hfits := parse_fits h
  unfold parse at h
  obtain ⟨_, hsize, h⟩ := bind_ok.mp h
  have hbytes := require_ok.mp hsize
  obtain ⟨_, -, h⟩ := bind_ok.mp h
  cases htext : String.fromUTF8? source with
  | none => simp [htext] at h
  | some text =>
      simp only [htext] at h
      obtain ⟨s, hscan, h⟩ := bind_ok.mp h
      obtain ⟨_, hclosed, h⟩ := bind_ok.mp h
      have hstack : s.stack = [] := by simpa using require_ok.mp hclosed
      have hwithin := scan_atomsWithin _ text.toList 0 {} s (Nat.le_refl _) hscan
      split at h
      · rename_i root hroots
        obtain rfl := pure_ok.mp h
        have hiff : root.AtomsWithin limits.maximumAtomCharacters ↔
            escapesWithin limits.maximumAtomCharacters none text.toList = true := by
          simpa [Scan.AtomsWithin, hroots, hstack, AtomsWithinOf] using hwithin
        constructor
        · intro hbounded other hother
          obtain rfl := Option.some.inj (htext.symm.trans hother)
          exact hiff.mp hbounded.atoms
        · intro hescapes
          exact ⟨hbytes, hfits.tokens_le, hfits.depth_le, hiff.mpr (hescapes text htext)⟩
      · simp at h

def oneCharacter : ParseLimits := { maximumAtomCharacters := 1 }

def twoEscapes : List Char := ['"', '\\', 'n', '\\', 'n', '"']

theorem twoEscapes_parse :
    parse oneCharacter (String.ofList twoEscapes).toByteArray = .ok (.quoted "\n\n") := by
  have hscan : scan oneCharacter 0 0 twoEscapes {} =
      .ok { roots := [.quoted "\n\n"], stack := [], tokenCount := 1 } := rfl
  exact parse_ofList hscan rfl rfl (by decide) (by decide)

theorem twoEscapes_bounded_iff :
    Bounded oneCharacter (String.ofList twoEscapes).toByteArray (.quoted "\n\n") ↔
      EscapesWithin oneCharacter (String.ofList twoEscapes).toByteArray :=
  (reader_bounded_iff oneCharacter _).2 _ twoEscapes_parse

/-- With a limit of one character the reader accepts a string of two. -/
theorem long_string_accepted : ¬ ∀ (limits : ParseLimits) (source : ByteArray) (e : SExpr),
    parse limits source = .ok e → Bounded limits source e := by
  intro h
  have hatoms := (h oneCharacter _ _ twoEscapes_parse).atoms
  simp [SExpr.AtomsWithin, oneCharacter] at hatoms

end Reader

end Evleda.KicadIo
