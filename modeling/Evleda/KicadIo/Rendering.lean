/-
What the reader returns is read back from either of its renderings.

The indented rendering differs from the one on one line in white space only: where
the one puts a blank between two parts of a list, the other puts a line break and
sometimes an indentation, and one more line break before the closing parenthesis.  So
the loop reads both alike, and the indented one is never the shorter of the two.

There is one exception, and it is a guard of the reader.  A source that starts with a
byte order mark is refused, and an expression is written with one in front exactly
when it is a single atom that starts with that character.
-/
import Evleda.KicadIo.RoundTrips

namespace Evleda.KicadIo

open SExpr

/-! ### The indented rendering -/

section Loop

variable {limits : ParseLimits}

theorem isSpace_indented (depth : Nat) : ∀ c ∈ '\n' :: indentation depth, Text.isSpace c = true := by
  intro c hc
  rcases List.mem_cons.mp hc with rfl | hc
  · decide
  · rw [List.eq_of_mem_replicate hc]
    decide

mutual

theorem pretty_spells : ∀ (e : SExpr) (depth : Nat), Spells e (pretty e depth)
  | .atom a, depth => by
      rw [pretty]
      · exact canonicalText_spells (.atom a)
      · intro first children h
        cases h
  | .quoted value, depth => by
      rw [pretty]
      · exact canonicalText_spells (.quoted value)
      · intro first children h
        cases h
  | .list [], depth => by
      rw [pretty]
      · exact canonicalText_spells (.list [])
      · intro first children h
        cases h
  | .list (first :: children), depth => by
      rw [pretty]
      by_cases hinline : (canonicalText (.list (first :: children))).length ≤ 100 ∧
          children.any SExpr.isList = false
      · simp only [if_pos hinline]
        exact canonicalText_spells (.list (first :: children))
      simp only [if_neg hinline]
      by_cases hflat : (children.all fun child => !child.isList) = true
      · rw [if_pos hflat]
        exact canonicalText_spells (.list (first :: children))
      rw [if_neg hflat]
      -- the head on the first line, the others below it, the parenthesis on the last line
      exact .list (canonicalText_spells first) (prettyLines_spells children (depth + 1)
        (SpellsRest.close (isSpace_indented depth)))

theorem prettyLines_spells : ∀ (items : List SExpr) (depth : Nat) {last : List Char},
    SpellsRest [] last → SpellsRest items (prettyLines items depth ++ last)
  | [], depth, last, hlast => by
      rw [prettyLines, List.nil_append]
      exact hlast
  | item :: items, depth, last, hlast => by
      have hblanks : ∀ c ∈ '\n' :: (if item.isList then indentation depth else []),
          Text.isSpace c = true := by
        intro c hc
        by_cases hlist : item.isList = true
        · rw [if_pos hlist] at hc
          exact isSpace_indented depth c hc
        · rw [if_neg hlist] at hc
          obtain rfl : c = '\n' := by simpa using hc
          decide
      have htext : prettyLines (item :: items) depth ++ last =
          '\n' :: (if item.isList then indentation depth else []) ++
            (pretty item depth ++ (prettyLines items depth ++ last)) := by
        rw [prettyLines]
        simp
      rw [htext]
      exact .item hblanks (pretty_spells item depth) (prettyLines_spells items depth hlast)

end

/-! ### The two renderings as sources -/

/-- `canonical_text`, encoded. -/
def canonicalBytes (e : SExpr) : ByteArray := (String.ofList (canonicalText e)).toByteArray

/-- The expression is read from its indented rendering, and from the line break at its end. -/
theorem parse_render {e : SExpr} (hfits : e.Fits limits)
    (hsize : (render e).size ≤ limits.maximumBytes) (hmark : hasByteOrderMark (render e) = false) :
    parse limits (render e) = .ok e :=
  parse_spells (pretty_spells e 0) (List.forall_mem_singleton.mpr (by decide)) hfits hsize hmark

end Loop

/-! ### Their lengths -/

/-- The number of bytes of a text. -/
def encodedSize : List Char → Nat
  | [] => 0
  | c :: text => c.utf8Size + encodedSize text

@[simp] theorem encodedSize_append (text text' : List Char) :
    encodedSize (text ++ text') = encodedSize text + encodedSize text' := by
  induction text with
  | nil => simp [encodedSize]
  | cons c text ih =>
      rw [List.cons_append, encodedSize, encodedSize, ih]
      omega

theorem size_ofList (text : List Char) :
    (String.ofList text).toByteArray.size = encodedSize text := by
  induction text with
  | nil => simp [encodedSize]
  | cons c text ih =>
      rw [String.toByteArray_ofList] at ih
      rw [String.toByteArray_ofList, List.utf8Encode_cons, ByteArray.size_append, ih, encodedSize]
      simp [List.utf8Encode_singleton]

mutual

/-- The indented rendering is never the shorter one. -/
theorem canonicalText_le_pretty : ∀ (e : SExpr) (depth : Nat),
    encodedSize (canonicalText e) ≤ encodedSize (pretty e depth)
  | .atom a, depth => by
      rw [pretty]
      intro first children h
      cases h
  | .quoted value, depth => by
      rw [pretty]
      intro first children h
      cases h
  | .list [], depth => by
      rw [pretty]
      intro first children h
      cases h
  | .list (first :: children), depth => by
      rw [pretty]
      by_cases hinline : (canonicalText (.list (first :: children))).length ≤ 100 ∧
          children.any SExpr.isList = false
      · simp only [if_pos hinline, le_refl]
      simp only [if_neg hinline]
      by_cases hflat : (children.all fun child => !child.isList) = true
      · rw [if_pos hflat]
      rw [if_neg hflat]
      have hchildren := canonicalRest_le_prettyLines children (depth + 1)
      rw [canonicalText]
      have hbreak : '\n'.utf8Size = 1 := rfl
      simp only [encodedSize, encodedSize_append] at hchildren ⊢
      omega

theorem canonicalRest_le_prettyLines : ∀ (items : List SExpr) (depth : Nat),
    encodedSize (canonicalRest items) ≤ encodedSize (prettyLines items depth) + encodedSize [')']
  | [], depth => by
      rw [canonicalRest, prettyLines]
      simp [encodedSize]
  | item :: items, depth => by
      have hitem := canonicalText_le_pretty item depth
      have hitems := canonicalRest_le_prettyLines items depth
      have hbreak : '\n'.utf8Size = ' '.utf8Size := rfl
      rw [canonicalRest, prettyLines]
      simp only [encodedSize, encodedSize_append, List.cons_append] at hitems ⊢
      omega

end

theorem canonicalBytes_le_render (e : SExpr) : (canonicalBytes e).size ≤ (render e).size := by
  have hle := canonicalText_le_pretty e 0
  have hcanonical : (canonicalBytes e).size = encodedSize (canonicalText e) := size_ofList _
  have hrender : (render e).size = encodedSize (pretty e 0 ++ ['\n']) := size_ofList _
  rw [hcanonical, hrender, encodedSize_append]
  omega

/-! ### The byte order mark -/

/-- U+FEFF, as which a byte order mark is read. -/
def byteOrderMark : Char := Char.ofNat 0xFEFF

theorem hasByteOrderMark_iff (text : List Char) :
    hasByteOrderMark (String.ofList text).toByteArray = true ↔ text.head? = some byteOrderMark := by
  have hdata : (String.ofList text).toByteArray.data.toList = text.flatMap String.utf8EncodeChar := by
    simp [List.utf8Encode]
  have hcode : String.utf8EncodeChar byteOrderMark = [0xEF, 0xBB, 0xBF] := by decide
  unfold hasByteOrderMark
  rw [hdata, List.isPrefixOf_iff_prefix]
  cases text with
  | nil => simp
  | cons c text =>
      rw [List.flatMap_cons, List.head?_cons, Option.some.injEq]
      constructor
      · rintro ⟨rest, hrest⟩
        -- both sides decode to their first character
        have hfirst := @ByteArray.utf8DecodeChar?_utf8EncodeChar_append
          (text.flatMap String.utf8EncodeChar).toByteArray c
        have hmark := @ByteArray.utf8DecodeChar?_utf8EncodeChar_append rest.toByteArray byteOrderMark
        rw [hcode, ← List.toByteArray_append, hrest, List.toByteArray_append, hfirst] at hmark
        exact Option.some.inj hmark
      · rintro rfl
        rw [hcode]
        exact List.prefix_append _ _

/-- A single atom that starts with the byte order mark. -/
def MarkedAtom (e : SExpr) : Prop :=
  ∃ a : Atom, e = .atom a ∧ a.value.toList.head? = some byteOrderMark

theorem canonicalText_head_iff (e : SExpr) :
    (canonicalText e).head? = some byteOrderMark ↔ MarkedAtom e := by
  unfold MarkedAtom
  cases e with
  | atom a => simp [canonicalText]
  | quoted value =>
      rw [canonicalText, quotedText_eq]
      simp [byteOrderMark]
  | list items => cases items <;> simp [canonicalText, byteOrderMark]

theorem canonicalText_ne_nil (e : SExpr) : canonicalText e ≠ [] := by
  cases e with
  | atom a =>
      rw [canonicalText]
      exact fun h => a.spelled.1 (String.toList_eq_nil_iff.mp h)
  | quoted value => simp [canonicalText, quotedText_eq]
  | list items => cases items <;> simp [canonicalText]

/-- Both renderings start with the same character. -/
theorem pretty_head (e : SExpr) (depth : Nat) : (pretty e depth).head? = (canonicalText e).head? := by
  cases e with
  | atom a =>
      rw [pretty]
      intro first children h
      cases h
  | quoted value =>
      rw [pretty]
      intro first children h
      cases h
  | list items =>
      cases items with
      | nil =>
          rw [pretty]
          intro first children h
          cases h
      | cons first children =>
          rw [pretty]
          by_cases hinline : (canonicalText (.list (first :: children))).length ≤ 100 ∧
              children.any SExpr.isList = false
          · simp only [if_pos hinline]
          simp only [if_neg hinline]
          by_cases hflat : (children.all fun child => !child.isList) = true
          · rw [if_pos hflat]
          rw [if_neg hflat, canonicalText]
          rfl

theorem canonicalBytes_marked_iff (e : SExpr) :
    hasByteOrderMark (canonicalBytes e) = true ↔ MarkedAtom e := by
  rw [canonicalBytes, hasByteOrderMark_iff, canonicalText_head_iff]

theorem render_marked_iff (e : SExpr) : hasByteOrderMark (render e) = true ↔ MarkedAtom e := by
  rw [render, hasByteOrderMark_iff, ← canonicalText_head_iff, ← pretty_head e 0]
  cases htext : pretty e 0 with
  | nil =>
      have hhead := pretty_head e 0
      rw [htext, List.head?_nil] at hhead
      exact absurd (List.head?_eq_none_iff.mp hhead.symm) (canonicalText_ne_nil e)
  | cons c text => rfl

theorem parse_marked {limits : ParseLimits} {source : ByteArray}
    (hsize : source.size ≤ limits.maximumBytes) (hmark : hasByteOrderMark source = true) :
    parse limits source = .error (.syntaxError
      "UTF-8 BOM is not accepted in KiCad project input") := by
  unfold parse
  rw [require, if_pos hsize, require, if_neg (by simp [hmark])]
  rfl

/-! ### Reading back -/

/-- **Every expression the reader returns is read back from both of its renderings, if they are
within the byte limit, unless it is a single atom that starts with the byte order mark**; such a
rendering is refused for the mark. -/
theorem rendering_reads_back {limits : ParseLimits} {source : ByteArray} {e : SExpr}
    (h : parse limits source = .ok e) (hsize : (render e).size ≤ limits.maximumBytes) :
    (¬ MarkedAtom e →
      parse limits (render e) = .ok e ∧ parse limits (canonicalBytes e) = .ok e) ∧
    (MarkedAtom e → ∀ text, text = render e ∨ text = canonicalBytes e →
      parse limits text = .error (.syntaxError
        "UTF-8 BOM is not accepted in KiCad project input")) := by
  have hfits := parse_fits h
  have hcanonical := (canonicalBytes_le_render e).trans hsize
  constructor
  · intro hplain
    refine ⟨parse_render hfits hsize ?_, parse_canonicalText hfits hcanonical ?_⟩
    · exact Bool.eq_false_iff.mpr fun hmark => hplain ((render_marked_iff e).mp hmark)
    · exact Bool.eq_false_iff.mpr fun hmark => hplain ((canonicalBytes_marked_iff e).mp hmark)
  · rintro hmarked text (rfl | rfl)
    · exact parse_marked hsize ((render_marked_iff e).mpr hmarked)
    · exact parse_marked hcanonical ((canonicalBytes_marked_iff e).mpr hmarked)

/-- A list with an empty list and a string in it. -/
def nestedSource : List Char := ['(', 'a', '(', ')', '"', 'b', '\\', 'n', '"', ')']

def nested : SExpr := .list [.atom (word "a"), .list [], .quoted "b\n"]

theorem nestedSource_parse : parse {} (String.ofList nestedSource).toByteArray = .ok nested := by
  have hscan : scan {} 0 0 nestedSource {} = .ok { roots := [nested], stack := [], tokenCount := 6 } :=
    rfl
  exact parse_ofList hscan rfl rfl (by decide) (by decide)

theorem nested_reads_back :
    parse {} (render nested) = .ok nested ∧ parse {} (canonicalBytes nested) = .ok nested := by
  have hsize : (render nested).size ≤ ({} : ParseLimits).maximumBytes := by
    rw [render, size_ofList]
    decide
  refine (rendering_reads_back nestedSource_parse hsize).1 ?_
  unfold MarkedAtom nested
  simp

/-- A blank, a byte order mark and a letter. -/
def markedSource : List Char := [' ', byteOrderMark, 'a']

def marked : SExpr := .atom (word "\uFEFFa")

theorem markedSource_parse : parse {} (String.ofList markedSource).toByteArray = .ok marked := by
  have hscan : scan {} 0 0 markedSource {} = .ok { roots := [marked], stack := [], tokenCount := 1 } :=
    rfl
  exact parse_ofList hscan rfl rfl (by decide) (by decide)

/-- The atom that starts with a byte order mark is written and not read. -/
theorem marked_rendering_refused : ¬ ∀ (limits : ParseLimits) (source : ByteArray) (e : SExpr),
    parse limits source = .ok e → (render e).size ≤ limits.maximumBytes →
      parse limits (render e) = .ok e ∧ parse limits (canonicalBytes e) = .ok e := by
  intro h
  have hsize : (render marked).size ≤ ({} : ParseLimits).maximumBytes := by
    rw [render, size_ofList]
    decide
  have hmark : MarkedAtom marked := ⟨word "\uFEFFa", rfl, rfl⟩
  have hback := (h {} _ marked markedSource_parse hsize).1
  rw [parse_marked hsize ((render_marked_iff marked).mpr hmark)] at hback
  cases hback

end Evleda.KicadIo
