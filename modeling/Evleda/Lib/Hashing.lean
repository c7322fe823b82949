/-
The hash of the program.

SHA-256 is taken over a text and written as text.  It is a parameter here: a
function from texts to texts, an instance of `Hashing`.  Results that need it to
be free of collisions say so with `Hashing.CollisionFree`, and only those.

The parameter is not required to return sixty-four hexadecimal digits, because
no injective function does.  The program checks that shape itself wherever it
reads a digest, and the model keeps those checks, so what a theorem says about
an injective hash it says about every run of the real one in which no two
different texts happened to get the same digest.
-/
import Evleda.Lib.Json
import Mathlib.Data.List.Nodup

namespace Evleda

/-- The hexadecimal SHA-256 of a text encoded as UTF-8; the text is the list of its characters. -/
class Hashing where
  sha256 : List Char → String

/-- The hexadecimal HMAC-SHA-256 of a text under a secret key. -/
class KeyedHashing where
  hmac : List UInt8 → List Char → String

namespace KeyedHashing

/-- Under the key, no two texts have the same code. -/
def CollisionFree [KeyedHashing] (key : List UInt8) : Prop := Function.Injective (hmac key)

/-- The code of the canonical text of a value. -/
def ofJson [KeyedHashing] (key : List UInt8) (value : Json) : String := hmac key value.render

theorem ofJson_inj [KeyedHashing] {key : List UInt8} (hfree : CollisionFree key) {a b : Json}
    (h : ofJson key a = ofJson key b) : a = b :=
  Json.render_injective (hfree h)

end KeyedHashing

namespace Hashing

/-- No two texts have the same digest. -/
def CollisionFree [Hashing] : Prop := Function.Injective sha256

/-- The digest of the canonical text of a value. -/
def ofJson [Hashing] (value : Json) : String := sha256 value.render

theorem ofJson_inj [Hashing] (hfree : CollisionFree) {a b : Json} (h : ofJson a = ofJson b) :
    a = b :=
  Json.render_injective (hfree h)

/-- The digest of a value under a domain: the domain and the text, parted by a NUL. -/
def inDomain [Hashing] (domain : String) (value : Json) : String :=
  sha256 (domain.toList ++ Char.ofNat 0 :: value.render)

/-- Two digests taken in one domain agree only on equal values. -/
theorem inDomain_inj [Hashing] (hfree : CollisionFree) {domain : String} {a b : Json}
    (h : inDomain domain a = inDomain domain b) : a = b := by
  have htexts := List.append_cancel_left (hfree h)
  exact Json.render_injective (List.cons.inj htexts).2

/-! ### A collision-free hash with given digests -/

/-- The listed texts have the listed digests; any other text is its own digest, marked. -/
@[reducible] def tabled (table : List (List Char × String)) : Hashing where
  sha256 text := (table.lookup text).getD (String.ofList ('!' :: text))

theorem tabled_listed {table : List (List Char × String)} {text : List Char} {digest : String}
    (h : table.lookup text = some digest) : (tabled table).sha256 text = digest := by
  show (table.lookup text).getD _ = digest
  rw [h, Option.getD_some]

theorem tabled_collisionFree {table : List (List Char × String)}
    (hdistinct : (table.map Prod.snd).Nodup)
    (hunmarked : ∀ digest ∈ table.map Prod.snd, digest.toList.head? ≠ some '!') :
    @CollisionFree (tabled table) := by
  have hmem : ∀ text digest, table.lookup text = some digest → (text, digest) ∈ table := by
    intro text digest h
    obtain ⟨l₁, l₂, rfl, -⟩ := List.lookup_eq_some_iff.mp h
    simp
  have hmarked : ∀ text digest other, table.lookup text = some digest →
      digest ≠ String.ofList ('!' :: other) := by
    intro text digest other h heq
    refine hunmarked digest (List.mem_map_of_mem (hmem text digest h)) ?_
    rw [heq, String.toList_ofList]
    rfl
  intro text text' h
  change (table.lookup text).getD (String.ofList ('!' :: text)) =
    (table.lookup text').getD (String.ofList ('!' :: text')) at h
  cases hfirst : table.lookup text with
  | none =>
      cases hsecond : table.lookup text' with
      | none =>
          rw [hfirst, hsecond] at h
          have hlists := congrArg String.toList h
          simpa using hlists
      | some digest =>
          rw [hfirst, hsecond] at h
          exact absurd h.symm (hmarked text' digest text hsecond)
  | some digest =>
      cases hsecond : table.lookup text' with
      | none =>
          rw [hfirst, hsecond] at h
          exact absurd h (hmarked text digest text' hfirst)
      | some digest' =>
          rw [hfirst, hsecond] at h
          have hdigests : digest = digest' := h
          have hpair := List.inj_on_of_nodup_map hdistinct (hmem _ _ hfirst) (hmem _ _ hsecond)
            hdigests
          exact congrArg Prod.fst hpair

/-- A value under a domain, with the digest it is to have. -/
structure Entry where
  domain : String
  value : Json
  digest : String

/-- The text whose digest an entry gives. -/
def Entry.text (entry : Entry) : List Char :=
  entry.domain.toList ++ Char.ofNat 0 :: entry.value.render

/-- A hash that gives the listed values their digests. -/
@[reducible] def listed (entries : List Entry) : Hashing :=
  tabled (entries.map fun entry => (entry.text, entry.digest))

theorem Entry.text_inj {a b : Entry} (ha : a.domain.toList.contains (Char.ofNat 0) = false)
    (hb : b.domain.toList.contains (Char.ofNat 0) = false) (h : a.text = b.text) :
    a.domain = b.domain ∧ a.value = b.value := by
  have hsplit : ∀ entry : Entry, entry.domain.toList.contains (Char.ofNat 0) = false →
      entry.text.takeWhile (· != Char.ofNat 0) = entry.domain.toList := by
    intro entry hentry
    unfold Entry.text
    rw [List.takeWhile_append_of_pos, List.takeWhile_cons_of_neg (by simp), List.append_nil]
    intro c hc
    rw [bne_iff_ne]
    rintro rfl
    rw [← Bool.not_eq_true, List.contains_iff_mem] at hentry
    exact hentry hc
  have hdomains : a.domain.toList = b.domain.toList := by
    rw [← hsplit a ha, ← hsplit b hb, h]
  unfold Entry.text at h
  rw [hdomains] at h
  have htexts := List.append_cancel_left h
  exact ⟨String.toList_inj.mp hdomains, Json.render_injective (List.cons.inj htexts).2⟩

theorem lookup_text {entries : List Entry}
    (hplain : ∀ entry ∈ entries, entry.domain.toList.contains (Char.ofNat 0) = false)
    (hdistinct : entries.Pairwise (fun a b => a.domain = b.domain → a.value ≠ b.value))
    {entry : Entry} (hmem : entry ∈ entries) :
    (entries.map fun entry => (entry.text, entry.digest)).lookup entry.text =
      some entry.digest := by
  induction entries with
  | nil => cases hmem
  | cons first rest ih =>
      rw [List.pairwise_cons] at hdistinct
      rw [List.map_cons, List.lookup_cons]
      rcases List.mem_cons.mp hmem with rfl | hin
      · rw [BEq.rfl]
      · have hne : (entry.text == first.text) = false := by
          rw [beq_eq_false_iff_ne]
          intro heq
          obtain ⟨hdomain, hvalue⟩ := Entry.text_inj (hplain entry hmem)
            (hplain first List.mem_cons_self) heq
          exact hdistinct.1 entry hin hdomain.symm hvalue.symm
        rw [hne]
        exact ih (fun other hother => hplain other (List.mem_cons_of_mem _ hother)) hdistinct.2 hin

theorem listed_inDomain {entries : List Entry}
    (hplain : ∀ entry ∈ entries, entry.domain.toList.contains (Char.ofNat 0) = false)
    (hdistinct : entries.Pairwise (fun a b => a.domain = b.domain → a.value ≠ b.value))
    {entry : Entry} (hmem : entry ∈ entries) :
    @inDomain (listed entries) entry.domain entry.value = entry.digest :=
  tabled_listed (lookup_text hplain hdistinct hmem)

/-- A hash that gives the listed values their digests, and any other text the same one. -/
@[reducible] def listedOr (entries : List Entry) (other : String) : Hashing where
  sha256 text :=
    ((entries.map fun entry => (entry.text, entry.digest)).lookup text).getD other

theorem listedOr_inDomain {entries : List Entry} (other : String)
    (hplain : ∀ entry ∈ entries, entry.domain.toList.contains (Char.ofNat 0) = false)
    (hdistinct : entries.Pairwise (fun a b => a.domain = b.domain → a.value ≠ b.value))
    {entry : Entry} (hmem : entry ∈ entries) :
    @inDomain (listedOr entries other) entry.domain entry.value = entry.digest := by
  show (List.lookup entry.text _).getD other = entry.digest
  rw [lookup_text hplain hdistinct hmem, Option.getD_some]

/-- Such a hash has no digests but those. -/
theorem listedOr_cases {entries : List Entry} {other : String} (text : List Char) :
    (listedOr entries other).sha256 text ∈ other :: entries.map (·.digest) := by
  show (List.lookup text _).getD other ∈ _
  cases hfound : (entries.map fun entry => (entry.text, entry.digest)).lookup text with
  | none => exact List.mem_cons_self
  | some digest =>
      obtain ⟨before, after, hsplit, -⟩ := List.lookup_eq_some_iff.mp hfound
      have hmem : (text, digest) ∈ entries.map fun entry => (entry.text, entry.digest) := by
        rw [hsplit]
        simp
      obtain ⟨entry, hentry, hpair⟩ := List.mem_map.mp hmem
      rw [Prod.mk.injEq] at hpair
      exact List.mem_cons_of_mem _ (List.mem_map.mpr ⟨entry, hentry, hpair.2⟩)

theorem listedOr_listed {entries : List Entry} {other : String} {text : List Char} {digest : String}
    (h : (listedOr entries other).sha256 text = digest) (hne : digest ≠ other) :
    ∃ entry ∈ entries, entry.text = text ∧ entry.digest = digest := by
  change (List.lookup text _).getD other = digest at h
  cases hfound : (entries.map fun entry => (entry.text, entry.digest)).lookup text with
  | none =>
      rw [hfound] at h
      exact absurd h.symm hne
  | some found =>
      rw [hfound] at h
      obtain ⟨before, after, hsplit, -⟩ := List.lookup_eq_some_iff.mp hfound
      have hmem : (text, found) ∈ entries.map fun entry => (entry.text, entry.digest) := by
        rw [hsplit]
        simp
      obtain ⟨entry, hentry, hpair⟩ := List.mem_map.mp hmem
      rw [Prod.mk.injEq] at hpair
      exact ⟨entry, hentry, hpair.1, hpair.2.trans h⟩

end Hashing

end Evleda
