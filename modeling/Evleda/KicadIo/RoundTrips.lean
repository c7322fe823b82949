/-
The reader reads whatever spells an expression, and so what the writer wrote on one
line.

A quoted string is spelled with an escape for each character that needs one, an atom
as it is, and the parts of a list with some white space between them; so wherever an
expression is written, what follows it starts with a character that ends an atom.
-/
import Evleda.KicadIo.Reading

namespace Evleda.KicadIo

open SExpr Outcome

/-! ### Quoted strings -/

/-- One character of a quoted string as it is written. -/
def escape (c : Char) : List Char :=
  if c = '\\' then ['\\', '\\']
  else if c = '"' then ['\\', '"']
  else if c = '\n' then ['\\', 'n']
  else if c = '\r' then ['\\', 'r']
  else if c = '\t' then ['\\', 't']
  else [c]

/-- Replacing one character after the other writes each character's escape. -/
theorem quotedText_eq (value : String) :
    quotedText value = '"' :: (value.toList.flatMap escape ++ ['"']) := by
  have hreplaced : ∀ text : List Char,
      replaceChar '\t' ['\\', 't'] (replaceChar '\r' ['\\', 'r'] (replaceChar '\n' ['\\', 'n']
        (replaceChar '"' ['\\', '"'] (replaceChar '\\' ['\\', '\\'] text)))) =
      text.flatMap escape := by
    intro text
    simp only [replaceChar, List.flatMap_assoc]
    refine List.flatMap_congr fun c _ => ?_
    unfold escape
    by_cases hslash : c = '\\'
    · subst hslash
      rfl
    by_cases hquote : c = '"'
    · subst hquote
      rfl
    by_cases hline : c = '\n'
    · subst hline
      rfl
    by_cases hreturn : c = '\r'
    · subst hreturn
      rfl
    by_cases htab : c = '\t'
    · subst htab
      rfl
    · simp [hslash, hquote, hline, hreturn, htab]
  unfold quotedText
  rw [hreplaced]

/-- An escape is read as the character it stands for. -/
theorem escape_of_isEscaped {c : Char} (h : isEscaped c = true) :
    ∃ escaped, escape c = ['\\', escaped] ∧ translation escaped = some c := by
  have hc : (((c = '\\' ∨ c = '"') ∨ c = '\n') ∨ c = '\r') ∨ c = '\t' := by
    simpa [isEscaped] using h
  rcases hc with (((rfl | rfl) | rfl) | rfl) | rfl
  · exact ⟨'\\', rfl, rfl⟩
  · exact ⟨'"', rfl, rfl⟩
  · exact ⟨'n', rfl, rfl⟩
  · exact ⟨'r', rfl, rfl⟩
  · exact ⟨'t', rfl, rfl⟩

theorem escape_of_plain {c : Char} (h : isEscaped c = false) :
    escape c = [c] ∧ c ≠ '"' ∧ c ≠ '\\' := by
  have hc : (((c ≠ '\\' ∧ c ≠ '"') ∧ c ≠ '\n') ∧ c ≠ '\r') ∧ c ≠ '\t' := by
    simpa [isEscaped] using h
  obtain ⟨⟨⟨⟨hslash, hquote⟩, hline⟩, hreturn⟩, htab⟩ := hc
  exact ⟨by simp [escape, hslash, hquote, hline, hreturn, htab], hquote, hslash⟩

section Loop

variable {limits : ParseLimits}

theorem readQuoted_escape (rest : List Char) : ∀ (cs value : List Char),
    QuotedFits limits value.length cs →
      readQuoted limits value (cs.flatMap escape ++ '"' :: rest) =
        .ok (value ++ cs, (cs.flatMap escape).length + 1) := by
  intro cs
  induction cs with
  | nil =>
      intro value _
      rw [List.flatMap_nil, List.nil_append, readQuoted.eq_def]
      simp
  | cons c cs ih =>
      intro value hfits
      rw [QuotedFits] at hfits
      have hnext := ih (value ++ [c]) (by simpa using hfits.2)
      rw [List.append_assoc, List.singleton_append] at hnext
      rw [List.flatMap_cons]
      cases hescaped : isEscaped c with
      | true =>
          obtain ⟨escaped, hescape, htranslation⟩ := escape_of_isEscaped hescaped
          rw [hescape]
          simp only [List.cons_append, List.nil_append, List.length_cons]
          rw [readQuoted.eq_def]
          simp only [if_neg (show ¬ '\\' = '"' by decide), if_pos, htranslation]
          rw [hnext]
          rfl
      | false =>
          obtain ⟨hescape, hquote, hslash⟩ := escape_of_plain hescaped
          obtain ⟨hcontrol, hshort⟩ := hfits.1.resolve_left (by simp [hescaped])
          have hchecked : require (32 ≤ c.toNat ∨ c = '\t') (Failure.syntaxError
              "quoted string contains an unescaped control character") = .ok () :=
            require_ok.mpr (Or.inl hcontrol)
          have hlength : require ((value ++ [c]).length ≤ limits.maximumAtomCharacters)
              (Failure.syntaxError "quoted string exceeds the parser character limit") = .ok () :=
            require_ok.mpr (by simpa using hshort)
          rw [hescape]
          simp only [List.cons_append, List.nil_append, List.length_cons]
          rw [readQuoted.eq_def]
          simp only [if_neg hquote, if_neg hslash]
          rw [hchecked, hlength, hnext]
          rfl

/-! ### The loop over the text -/

/-- Characters that were read already are jumped over. -/
theorem scan_skip (skip index : Nat) (text : List Char) (s : Scan) :
    scan limits skip index text s = scan limits 0 (index + skip) (text.drop skip) s := by
  induction text generalizing skip index with
  | nil => rw [List.drop_nil, scan, scan]
  | cons c text ih =>
      cases skip with
      | zero => rfl
      | succ skip =>
          rw [scan, ih, List.drop_succ_cons]
          congr 1
          omega

/-- The state after reading one more expression. -/
def Scan.after (e : SExpr) (s : Scan) : Scan :=
  { s.push e with tokenCount := s.tokenCount + e.tokens }

/-- Nothing follows, or something that ends an atom. -/
def Ended (rest : List Char) : Prop := ∀ c ∈ rest.head?, endsAtom c = true

theorem appendToken_after {token : SExpr} {s : Scan} (htoken : token.tokens = 1)
    (hlimit : s.tokenCount + 1 ≤ limits.maximumTokens) :
    appendToken limits token s = .ok (s.after token) := by
  refine appendToken_ok.mpr ⟨hlimit, ?_⟩
  rw [Scan.after, htoken]

/-- Where an expression is put does not depend on the number of tokens. -/
theorem push_tokenCount (e : SExpr) (s : Scan) (count count' : Nat) :
    { Scan.push e { s with tokenCount := count } with tokenCount := count' } =
      { Scan.push e s with tokenCount := count' } := by
  unfold Scan.push
  cases s.stack with
  | nil => rfl
  | cons top below => rfl

theorem scan_open {s : Scan} {index : Nat} {rest : List Char}
    (hlimit : s.tokenCount + 1 ≤ limits.maximumTokens)
    (hdepth : s.stack.length + 1 ≤ limits.maximumDepth) :
    scan limits 0 index ('(' :: rest) s =
      scan limits 0 (index + 1) rest
        { s with stack := [] :: s.stack, tokenCount := s.tokenCount + 1 } := by
  rw [scan, if_neg (by decide), if_pos rfl, countToken_ok.mpr ⟨hlimit, rfl⟩]
  have hlevel : require (([] :: s.stack).length ≤ limits.maximumDepth) (Failure.syntaxError
      ("KiCad source exceeds the " ++ toString limits.maximumDepth ++ "-level nesting limit")) =
      .ok () := require_ok.mpr hdepth
  show (require _ _ >>= _) = _
  rw [hlevel]
  rfl

theorem scan_close (top : List SExpr) (below : List (List SExpr)) (s : Scan) (index : Nat)
    (rest : List Char) (hlimit : s.tokenCount + 1 ≤ limits.maximumTokens) :
    ∃ index', scan limits 0 index (')' :: rest) { s with stack := top :: below } =
      scan limits 0 index' rest
        { Scan.push (.list top) { s with stack := below } with
          tokenCount := s.tokenCount + 1 } := by
  refine ⟨index + 1, ?_⟩
  rw [scan, if_neg (by decide), if_neg (by decide), if_pos rfl]
  show (appendToken limits (.list top) { s with stack := below } >>= _) = _
  have happend : appendToken limits (.list top) { s with stack := below } = .ok _ :=
    appendToken_ok.mpr ⟨hlimit, rfl⟩
  rw [happend]
  rfl

theorem scan_atom (a : Atom) (s : Scan) (index : Nat) (rest : List Char)
    (hfits : a.value.toList.length ≤ limits.maximumAtomCharacters)
    (hlimit : s.tokenCount + 1 ≤ limits.maximumTokens) (hrest : Ended rest) :
    ∃ index', scan limits 0 index (a.value.toList ++ rest) s =
      scan limits 0 index' rest (s.after (.atom a)) := by
  obtain ⟨hne, hplain⟩ := a.spelled
  have hplain : ∀ c ∈ a.value.toList, endsAtom c = false := by
    intro c hc
    simpa using List.all_eq_true.mp hplain c hc
  have htake : (a.value.toList ++ rest).takeWhile (fun c => !endsAtom c) = a.value.toList := by
    rw [List.takeWhile_append_of_pos (by simpa using hplain)]
    have hnone : rest.takeWhile (fun c => !endsAtom c) = [] := by
      cases rest with
      | nil => rfl
      | cons c rest =>
          rw [List.takeWhile_cons_of_neg]
          simp [hrest c rfl]
    rw [hnone, List.append_nil]
  have hmake : Atom.make (String.ofList a.value.toList) = .ok a := by
    rw [String.ofList_toList]
    exact Atom.make_ok.mpr rfl
  cases htext : a.value.toList with
  | nil => exact absurd (String.toList_eq_nil_iff.mp htext) hne
  | cons c cs =>
      rw [htext] at hplain htake hmake hfits
      have hc := hplain c (List.mem_cons_self ..)
      have hspace : Text.isSpace c = false := by
        cases h : Text.isSpace c
        · rfl
        · simp [endsAtom, h] at hc
      have hopen : c ≠ '(' := by
        rintro rfl
        exact absurd hc (by decide)
      have hclose : c ≠ ')' := by
        rintro rfl
        exact absurd hc (by decide)
      have hquote : c ≠ '"' := by
        rintro rfl
        exact absurd hc (by decide)
      have hlong : require ((c :: cs).length ≤ limits.maximumAtomCharacters)
          (Failure.syntaxError "atom exceeds the parser character limit") = .ok () :=
        require_ok.mpr hfits
      refine ⟨index + 1 + cs.length, ?_⟩
      rw [List.cons_append] at htake ⊢
      rw [scan, if_neg (by simp [hspace]), if_neg hopen, if_neg hclose, if_neg hquote]
      simp only [htake]
      rw [hlong, hmake]
      show (appendToken limits (.atom a) s >>= _) = _
      rw [appendToken_after (by rw [tokens]) hlimit]
      show scan limits ((c :: cs).length - 1) (index + 1) (cs ++ rest) _ = _
      rw [List.length_cons, Nat.add_sub_cancel, scan_skip, List.drop_left]

theorem scan_quoted (value : String) (s : Scan) (index : Nat) (rest : List Char)
    (hfits : QuotedFits limits 0 value.toList)
    (hlimit : s.tokenCount + 1 ≤ limits.maximumTokens) :
    ∃ index', scan limits 0 index (quotedText value ++ rest) s =
      scan limits 0 index' rest (s.after (.quoted value)) := by
  have hread := readQuoted_escape rest value.toList [] hfits
  refine ⟨index + 1 + ((value.toList.flatMap escape).length + 1), ?_⟩
  rw [quotedText_eq, List.cons_append, List.append_assoc, List.singleton_append, scan,
    if_neg (by decide), if_neg (by decide), if_neg (by decide), if_pos rfl, hread]
  show (appendToken limits (.quoted (String.ofList ([] ++ value.toList))) s >>= _) = _
  rw [List.nil_append, String.ofList_toList, appendToken_after (by rw [tokens]) hlimit]
  show scan limits _ _ _ _ = _
  rw [scan_skip]
  congr 1
  rw [List.drop_append, List.drop_eq_nil_of_le (Nat.le_succ _), Nat.add_sub_cancel_left]
  rfl

mutual

/-- A text that spells an expression, with some white space between the parts of its lists. -/
inductive Spells : SExpr → List Char → Prop
  | atom (a : Atom) : Spells (.atom a) a.value.toList
  | quoted (value : String) : Spells (.quoted value) (quotedText value)
  | empty : Spells (.list []) ['(', ')']
  | list {first : SExpr} {items : List SExpr} {text parts : List Char} (hfirst : Spells first text)
      (hitems : SpellsRest items parts) : Spells (.list (first :: items)) ('(' :: (text ++ parts))

/-- A text that spells the items after the first, with the closing parenthesis. -/
inductive SpellsRest : List SExpr → List Char → Prop
  | close {blanks : List Char} (hblanks : ∀ c ∈ blanks, Text.isSpace c = true) :
      SpellsRest [] (blanks ++ [')'])
  | item {item : SExpr} {items : List SExpr} {blank : Char} {blanks text parts : List Char}
      (hblanks : ∀ c ∈ blank :: blanks, Text.isSpace c = true) (hitem : Spells item text)
      (hitems : SpellsRest items parts) :
      SpellsRest (item :: items) (blank :: blanks ++ (text ++ parts))

end

theorem endsAtom_of_isSpace {c : Char} (h : Text.isSpace c = true) : endsAtom c = true := by
  unfold endsAtom
  rw [h, Bool.true_or]

theorem SpellsRest.ended {items : List SExpr} {parts : List Char} (h : SpellsRest items parts)
    (rest : List Char) : Ended (parts ++ rest) := by
  intro c hc
  cases h with
  | @close blanks hblanks =>
      cases blanks with
      | nil =>
          obtain rfl : ')' = c := by simpa using hc
          decide
      | cons blank blanks =>
          obtain rfl : blank = c := by simpa using hc
          exact endsAtom_of_isSpace (hblanks blank (List.mem_cons_self ..))
  | @item _ _ blank _ _ _ hblanks _ _ =>
      obtain rfl : blank = c := by simpa using hc
      exact endsAtom_of_isSpace (hblanks blank (List.mem_cons_self ..))

theorem scan_blanks (rest : List Char) (s : Scan) : ∀ (blanks : List Char) (index : Nat),
    (∀ c ∈ blanks, Text.isSpace c = true) →
      ∃ index', scan limits 0 index (blanks ++ rest) s = scan limits 0 index' rest s := by
  intro blanks
  induction blanks with
  | nil => intro index _; exact ⟨index, rfl⟩
  | cons c blanks ih =>
      intro index hblank
      obtain ⟨index', hrest⟩ := ih (index + 1) (fun d hd => hblank d (by simp [hd]))
      refine ⟨index', ?_⟩
      rw [List.cons_append, scan, if_pos (hblank c (by simp)), hrest]

mutual

theorem scan_spells : ∀ (e : SExpr) {text : List Char} (s : Scan) (index : Nat) (rest : List Char),
    Spells e text → e.AtomsFit limits → e.depth + s.stack.length ≤ limits.maximumDepth →
    s.tokenCount + e.tokens ≤ limits.maximumTokens → Ended rest →
      ∃ index', scan limits 0 index (text ++ rest) s = scan limits 0 index' rest (s.after e)
  | .atom a, text, s, index, rest, hspells, hfits, _, hlimit, hrest => by
      cases hspells with
      | atom =>
          rw [AtomsFit] at hfits
          rw [tokens] at hlimit
          exact scan_atom a s index rest hfits hlimit hrest
  | .quoted value, text, s, index, rest, hspells, hfits, _, hlimit, _ => by
      cases hspells with
      | quoted =>
          rw [AtomsFit] at hfits
          rw [tokens] at hlimit
          exact scan_quoted value s index rest hfits hlimit
  | .list [], text, s, index, rest, hspells, _, hdepth, hlimit, _ => by
      cases hspells with
      | empty =>
          rw [depth, depthOf] at hdepth
          rw [tokens, tokensOf] at hlimit
          have hopen : scan limits 0 index ('(' :: (')' :: rest)) s = _ :=
            scan_open (by omega) (by omega)
          obtain ⟨index', hclose⟩ := scan_close [] s.stack { s with tokenCount := s.tokenCount + 1 }
            (index + 1) rest (by simp only; omega)
          refine ⟨index', hopen.trans (hclose.trans ?_)⟩
          rw [Scan.after, tokens, tokensOf, Nat.zero_add]
          exact congrArg _ (push_tokenCount (.list []) s _ _)
  | .list (first :: items), text, s, index, rest, hspells, hfits, hdepth, hlimit, hrest => by
      cases hspells with
      | @list _ _ text parts hfirst hitems =>
          rw [AtomsFit, AtomsFitOf] at hfits
          rw [depth, depthOf] at hdepth
          rw [tokens, tokensOf] at hlimit
          have hopen : scan limits 0 index ('(' :: (text ++ (parts ++ rest))) s = _ :=
            scan_open (by omega) (by omega)
          obtain ⟨index₁, hread⟩ := scan_spells first
            { s with stack := [] :: s.stack, tokenCount := s.tokenCount + 1 } (index + 1)
            (parts ++ rest) hfirst hfits.1 (by simp only [List.length_cons]; omega)
            (by simp only; omega) (hitems.ended rest)
          obtain ⟨index₂, hreads⟩ := scan_spellsRest items [first] s.stack
            { s with tokenCount := s.tokenCount + 1 + first.tokens } index₁ rest hitems hfits.2
            (by omega) (by simp only; omega)
          refine ⟨index₂, ?_⟩
          rw [List.cons_append, List.append_assoc]
          refine hopen.trans (hread.trans (hreads.trans ?_))
          have hcount : s.tokenCount + 1 + first.tokens + tokensOf items + 1 =
              s.tokenCount + (first.tokens + tokensOf items + 2) := by omega
          rw [Scan.after, tokens, tokensOf, ← hcount]
          exact congrArg _ (push_tokenCount (.list (first :: items)) s _ _)

theorem scan_spellsRest : ∀ (items top : List SExpr) (below : List (List SExpr)) (s : Scan)
    (index : Nat) (rest : List Char) {parts : List Char}, SpellsRest items parts →
    AtomsFitOf limits items → depthOf items + (below.length + 1) ≤ limits.maximumDepth →
    s.tokenCount + tokensOf items + 1 ≤ limits.maximumTokens →
      ∃ index', scan limits 0 index (parts ++ rest) { s with stack := top :: below } =
        scan limits 0 index' rest
          { Scan.push (.list (top ++ items)) { s with stack := below } with
            tokenCount := s.tokenCount + tokensOf items + 1 }
  | [], top, below, s, index, rest, parts, hspells, _, _, hlimit => by
      cases hspells with
      | @close blanks hblanks =>
          rw [tokensOf] at hlimit
          obtain ⟨index₁, hpassed⟩ := @scan_blanks limits (')' :: rest)
            { s with stack := top :: below } blanks index hblanks
          obtain ⟨index₂, hclose⟩ := scan_close top below s index₁ rest hlimit
          refine ⟨index₂, ?_⟩
          rw [List.append_assoc, tokensOf, List.append_nil]
          exact hpassed.trans hclose
  | item :: items, top, below, s, index, rest, parts, hspells, hfits, hdepth, hlimit => by
      cases hspells with
      | @item _ _ blank blanks text parts hblanks hitem hitems =>
          rw [AtomsFitOf] at hfits
          rw [depthOf] at hdepth
          rw [tokensOf] at hlimit
          obtain ⟨index₁, hpassed⟩ := @scan_blanks limits (text ++ (parts ++ rest))
            { s with stack := top :: below } (blank :: blanks) index hblanks
          obtain ⟨index₂, hread⟩ := scan_spells item { s with stack := top :: below } index₁
            (parts ++ rest) hitem hfits.1 (by simp only [List.length_cons]; omega)
            (by simp only; omega) (hitems.ended rest)
          obtain ⟨index₃, hreads⟩ := scan_spellsRest items (top ++ [item]) below
            { s with tokenCount := s.tokenCount + item.tokens } index₂ rest hitems hfits.2
            (by omega) (by simp only; omega)
          refine ⟨index₃, ?_⟩
          rw [List.append_assoc, List.append_assoc]
          refine hpassed.trans (hread.trans (hreads.trans ?_))
          have hcount : s.tokenCount + item.tokens + tokensOf items + 1 =
              s.tokenCount + (item.tokens + tokensOf items) + 1 := by omega
          rw [List.append_assoc, List.singleton_append, tokensOf, ← hcount]
          exact congrArg _
            (push_tokenCount (.list (top ++ item :: items)) { s with stack := below } _ _)

end

mutual

theorem canonicalText_spells : ∀ e : SExpr, Spells e (canonicalText e)
  | .atom a => by
      rw [canonicalText]
      exact .atom a
  | .quoted value => by
      rw [canonicalText]
      exact .quoted value
  | .list [] => by
      rw [canonicalText]
      exact .empty
  | .list (first :: rest) => by
      rw [canonicalText]
      exact .list (canonicalText_spells first) (canonicalRest_spells rest)

theorem canonicalRest_spells : ∀ items : List SExpr, SpellsRest items (canonicalRest items)
  | [] => by
      rw [canonicalRest]
      exact @SpellsRest.close [] (by simp)
  | item :: rest => by
      rw [canonicalRest]
      exact @SpellsRest.item item rest ' ' [] _ _ (List.forall_mem_singleton.mpr (by decide))
        (canonicalText_spells item) (canonicalRest_spells rest)

end

/-- A text is read when the loop ends with one expression and no open list. -/
theorem parse_ofList {text : List Char} {s : Scan} {e : SExpr}
    (hscan : scan limits 0 0 text {} = .ok s) (hstack : s.stack = []) (hroots : s.roots = [e])
    (hsize : (String.ofList text).toByteArray.size ≤ limits.maximumBytes)
    (hmark : hasByteOrderMark (String.ofList text).toByteArray = false) :
    parse limits (String.ofList text).toByteArray = .ok e := by
  have htext : String.fromUTF8? (String.ofList text).toByteArray = some (String.ofList text) := by
    unfold String.fromUTF8?
    rw [dif_pos (String.ofList text).isValidUTF8]
    rfl
  unfold parse
  rw [require, if_pos hsize, require, if_pos hmark]
  simp only [htext, String.toList_ofList, hscan]
  show (require s.stack.isEmpty _ >>= _) = _
  rw [require, if_pos (List.isEmpty_iff.mpr hstack), hroots]
  rfl

/-- **An expression that fits is read back from whatever spells it**, unless the text is too long or
starts with a byte order mark. -/
theorem parse_spells {e : SExpr} {text blanks : List Char} (hspells : Spells e text)
    (hblanks : ∀ c ∈ blanks, Text.isSpace c = true) (hfits : e.Fits limits)
    (hsize : (String.ofList (text ++ blanks)).toByteArray.size ≤ limits.maximumBytes)
    (hmark : hasByteOrderMark (String.ofList (text ++ blanks)).toByteArray = false) :
    parse limits (String.ofList (text ++ blanks)).toByteArray = .ok e := by
  have hended : Ended blanks := by
    intro c hc
    exact endsAtom_of_isSpace (hblanks c (List.mem_of_mem_head? hc))
  obtain ⟨index₁, hread⟩ := scan_spells e {} 0 blanks hspells hfits.atoms
    (by simpa using hfits.depth_le) (by simpa using hfits.tokens_le) hended
  obtain ⟨index₂, hpassed⟩ := @scan_blanks limits [] (Scan.after e {}) blanks index₁ hblanks
  rw [List.append_nil] at hpassed
  exact parse_ofList ((hread.trans hpassed).trans (scan.eq_1 ..)) rfl rfl hsize hmark

theorem parse_canonicalText {e : SExpr} (hfits : e.Fits limits)
    (hsize : (String.ofList (canonicalText e)).toByteArray.size ≤ limits.maximumBytes)
    (hmark : hasByteOrderMark (String.ofList (canonicalText e)).toByteArray = false) :
    parse limits (String.ofList (canonicalText e)).toByteArray = .ok e := by
  have hread := @parse_spells limits e (canonicalText e) [] (canonicalText_spells e) (by simp) hfits
  rw [List.append_nil] at hread
  exact hread hsize hmark

/-- **No text spells two expressions that fit.** -/
theorem spells_unique {e e' : SExpr} {text : List Char} (hfits : e.Fits limits)
    (hfits' : e'.Fits limits) (h : Spells e text) (h' : Spells e' text) : e = e' := by
  have hread : ∀ e : SExpr, Spells e text → e.Fits limits →
      scan limits 0 0 text {} = .ok (Scan.after e {}) := by
    intro e hspells hfits
    obtain ⟨index, hscan⟩ := scan_spells e {} 0 [] hspells hfits.atoms
      (by simpa using hfits.depth_le) (by simpa using hfits.tokens_le) (by simp [Ended])
    rw [List.append_nil] at hscan
    exact hscan.trans (scan.eq_1 ..)
  have hsame := hread e h hfits
  rw [hread e' h' hfits', Except.ok.injEq] at hsame
  have hroots := congrArg Scan.roots hsame
  exact (List.cons.inj hroots).1.symm

theorem canonicalText_inj {e e' : SExpr} (hfits : e.Fits limits) (hfits' : e'.Fits limits)
    (h : canonicalText e = canonicalText e') : e = e' := by
  have hspells := canonicalText_spells e'
  rw [← h] at hspells
  exact spells_unique hfits hfits' (canonicalText_spells e) hspells

end Loop

end Evleda.KicadIo
