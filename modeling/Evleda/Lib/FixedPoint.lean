/-
Whole numbers of a small unit, written in a larger one.

Of a number of units, the whole part is written, and after a point the rest with zeros in
front of it and none behind it; where there is no rest there is no point.  What is read in
such a text has at most the digits of the number, so that it can always be held exactly, and
it is the number again in the small unit.
-/
import Evleda.Lib.Decimal

namespace Evleda

namespace FixedPoint

open Numeral

/-- `text.rstrip("0")` -/
def stripZeros (cs : List Char) : List Char := cs.rdropWhile (· = '0')

/-- The digits behind the point. -/
def fractionDigits (places fraction : Nat) : List Char :=
  stripZeros (Text.padded places fraction).toList

/-- The number in units of ten to `places`. -/
def written (places : Nat) (n : Int) : List Char :=
  let sign := if n < 0 then ['-'] else []
  let whole := n.natAbs / 10 ^ places
  let fraction := n.natAbs % 10 ^ places
  if fraction = 0 then sign ++ Nat.toDigits 10 whole
  else sign ++ Nat.toDigits 10 whole ++ '.' :: fractionDigits places fraction

/-! ### Digits -/

variable {c : Char} {cs whole fraction : List Char} {places m n : Nat}

/-- Digits, a point and a sign. -/
def Plain (c : Char) : Prop := c.isDigit = true ∨ c = '.' ∨ c = '-'

theorem isDigit_bounds (h : c.isDigit = true) : 48 ≤ c.toNat ∧ c.toNat ≤ 57 :=
  Char.isDigit_iff_toNat.mp h

theorem Plain.toNat (h : Plain c) : 45 ≤ c.toNat ∧ c.toNat ≤ 57 := by
  rcases h with hdigit | rfl | rfl
  · have hbounds := isDigit_bounds hdigit
    omega
  · decide
  · decide

theorem Plain.not_space (h : Plain c) : Text.isSpace c = false := by
  have hbounds := h.toNat
  unfold Text.isSpace
  simp
  omega

theorem digits_all (n : Nat) : ∀ c ∈ Nat.toDigits 10 n, c.isDigit = true :=
  fun _ hc => Nat.isDigit_of_mem_toDigits (by decide) (by decide) hc

theorem ofText_plain [DecimalDigits] (h : ∀ c ∈ cs, Plain c) :
    ofText (String.ofList cs) = Numeral.read cs := by
  have hfront : cs.dropWhile Text.isSpace = cs := by
    cases cs with
    | nil => rfl
    | cons c rest => rw [List.dropWhile_cons_of_neg (by simp [(h c List.mem_cons_self).not_space])]
  have hback : cs.rdropWhile Text.isSpace = cs := by
    rw [List.rdropWhile_eq_self_iff]
    intro hne
    simp [(h _ (List.getLast_mem hne)).not_space]
  have hunderscore : cs.filter (· ≠ '_') = cs := by
    rw [List.filter_eq_self]
    intro c hc
    have hbounds := (h c hc).toNat
    have hne : c ≠ '_' := by
      rintro rfl
      simp at hbounds
    simp [hne]
  have hascii : cs.mapM ascii = some cs := by
    have hsame : ∀ c ∈ cs, ascii c = some c := by
      intro c hc
      have hbounds := (h c hc).toNat
      unfold ascii
      rw [if_pos (by omega)]
    clear h hfront hback hunderscore
    induction cs with
    | nil => rfl
    | cons c rest ih =>
        rw [List.mapM_cons, hsame c List.mem_cons_self,
          ih fun a ha => hsame a (List.mem_cons_of_mem _ ha)]
        rfl
  unfold ofText
  rw [String.toList_ofList, hfront, hback]
  dsimp only
  rw [hunderscore, hascii]
  rfl

theorem readFinite_digits (negative : Bool) (hne : whole ≠ [])
    (hwhole : ∀ c ∈ whole, c.isDigit = true) (hfraction : ∀ c ∈ fraction, c.isDigit = true) :
    readFinite negative (whole ++ '.' :: fraction) =
      some (.finite ⟨negative, Nat.ofDigitChars 10 (whole ++ fraction) 0, -fraction.length⟩) := by
  have hpoint : ('.' : Char).isDigit = false := by decide
  have htake : (whole ++ '.' :: fraction).takeWhile Char.isDigit = whole := by
    rw [List.takeWhile_append_of_pos hwhole, List.takeWhile_cons_of_neg (by simp [hpoint]),
      List.append_nil]
  have hdrop : (whole ++ '.' :: fraction).dropWhile Char.isDigit = '.' :: fraction := by
    rw [List.dropWhile_append_of_pos hwhole, List.dropWhile_cons_of_neg (by simp [hpoint])]
  have hall : fraction.takeWhile Char.isDigit = fraction := List.takeWhile_eq_self_iff.mpr hfraction
  have hnone : fraction.dropWhile Char.isDigit = [] := List.dropWhile_eq_nil_iff.mpr hfraction
  unfold readFinite
  simp only [htake, hdrop, hall, hnone, readExponent, Option.map_some, zero_sub]
  rw [if_neg (by simp [hne])]

theorem readFinite_whole (negative : Bool) (hne : whole ≠ [])
    (hwhole : ∀ c ∈ whole, c.isDigit = true) :
    readFinite negative whole = some (.finite ⟨negative, Nat.ofDigitChars 10 whole 0, 0⟩) := by
  have hall : whole.takeWhile Char.isDigit = whole := List.takeWhile_eq_self_iff.mpr hwhole
  have hnone : whole.dropWhile Char.isDigit = [] := List.dropWhile_eq_nil_iff.mpr hwhole
  unfold readFinite
  simp only [hall, hnone, readExponent, Option.map_some, List.append_nil, List.length_nil,
    Nat.cast_zero, sub_zero]
  rw [if_neg hne]

theorem read_signed (negative : Bool) (hc : c.isDigit = true) :
    Numeral.read ((if negative then ['-'] else []) ++ c :: cs) = readFinite negative (c :: cs) := by
  have hbounds := isDigit_bounds hc
  have hsplit : splitSign ((if negative then ['-'] else []) ++ c :: cs) = (negative, c :: cs) := by
    cases negative with
    | true => rfl
    | false =>
        unfold splitSign
        split
        · rename_i heq
          rw [if_neg (by decide), List.nil_append, List.cons.injEq] at heq
          rw [heq.1] at hbounds
          simp at hbounds
        · rename_i heq
          rw [if_neg (by decide), List.nil_append, List.cons.injEq] at heq
          rw [heq.1] at hbounds
          simp at hbounds
        · rfl
  have hlower : c.toLower = c := by
    unfold Char.toLower
    rw [dif_neg]
    rintro ⟨hlow, -⟩
    have hle : 65 ≤ c.toNat := hlow
    omega
  have hfirst : ∀ d : Char, 57 < d.toNat → c ≠ d := by
    rintro d hd rfl
    omega
  unfold Numeral.read
  rw [hsplit]
  simp only [List.map_cons, hlower, List.take_succ_cons, List.cons.injEq, hfirst 'i' (by decide),
    hfirst 'n' (by decide), hfirst 's' (by decide), false_and, or_self, if_false]

/-! ### What a written number denotes -/

theorem stripZeros_pointed (front back : List Char) :
    stripZeros (front ++ '.' :: back) = front ++ '.' :: stripZeros back := by
  unfold stripZeros
  induction back using List.reverseRecOn with
  | nil => exact List.rdropWhile_concat_neg _ _ _ (by decide)
  | append_singleton back c ih =>
      rw [← List.cons_append, ← List.append_assoc, List.rdropWhile_concat, List.rdropWhile_concat]
      split
      · exact ih
      · rw [List.append_assoc, List.cons_append]

theorem ofDigitChars_stripZeros (cs : List Char) (init : Nat) :
    ∃ zeros, (stripZeros cs).length + zeros = cs.length ∧
      Nat.ofDigitChars 10 cs init = 10 ^ zeros * Nat.ofDigitChars 10 (stripZeros cs) init := by
  have hsplit : stripZeros cs ++ cs.rtakeWhile (· = '0') = cs := List.rdropWhile_append_rtakeWhile
  have hzeros : cs.rtakeWhile (· = '0') =
      List.replicate (cs.rtakeWhile (· = '0')).length '0' := by
    refine List.eq_replicate_of_mem fun c hc => ?_
    simpa using List.mem_rtakeWhile_imp hc
  refine ⟨(cs.rtakeWhile (· = '0')).length, ?_, ?_⟩
  · rw [← List.length_append, hsplit]
  · conv_lhs => rw [← hsplit, hzeros]
    rw [Nat.ofDigitChars_append, Nat.ofDigitChars_replicate_zero]

theorem isDigit_of_mem_fractionDigits (hc : c ∈ fractionDigits places n) : c.isDigit = true :=
  Text.isDigit_of_mem_padded ((List.rdropWhile_prefix _ _).subset hc)

theorem coefficient_fractionDigits (whole : Nat) (hplaces : 0 < places) (hn : n < 10 ^ places) :
    ∃ zeros, (fractionDigits places n).length + zeros = places ∧
      whole * 10 ^ places + n =
        10 ^ zeros * Nat.ofDigitChars 10 (Nat.toDigits 10 whole ++ fractionDigits places n) 0 := by
  obtain ⟨zeros, hlength, hvalue⟩ :=
    ofDigitChars_stripZeros (Text.padded places n).toList
      (Nat.ofDigitChars 10 (Nat.toDigits 10 whole) 0)
  refine ⟨zeros, hlength.trans (Text.length_padded hplaces hn), ?_⟩
  rw [Nat.ofDigitChars_append]
  unfold fractionDigits
  rw [← hvalue, Nat.ofDigitChars_eq_ofDigitChars_zero, Text.length_padded hplaces hn,
    Text.ofDigitChars_padded, Nat.ofDigitChars_ten_toDigits, mul_comm]

theorem value_signed {n : Int} {coefficient : Nat} {exponent : Int}
    (h : (coefficient : ℚ) * 10 ^ exponent * ((10 ^ places : Nat) : ℚ) = n.natAbs) :
    (⟨decide (n < 0), coefficient, exponent⟩ : Decimal).value * ((10 ^ places : Nat) : Int) =
      n := by
  unfold Decimal.value Decimal.magnitude
  rw [Int.cast_natCast]
  by_cases hnegative : n < 0
  · rw [if_pos (by simpa using hnegative), neg_mul, h, Nat.cast_natAbs, abs_of_neg hnegative]
    push_cast
    ring
  · rw [if_neg (by simpa using hnegative), h, Nat.cast_natAbs, abs_of_nonneg (not_lt.mp hnegative)]

theorem written_whole {n : Int} (h : n.natAbs % 10 ^ places = 0) : written places n =
    (if n < 0 then ['-'] else []) ++ Nat.toDigits 10 (n.natAbs / 10 ^ places) :=
  if_pos h

theorem written_pointed {n : Int} (h : n.natAbs % 10 ^ places ≠ 0) : written places n =
    (if n < 0 then ['-'] else []) ++ (Nat.toDigits 10 (n.natAbs / 10 ^ places) ++
      '.' :: fractionDigits places (n.natAbs % 10 ^ places)) := by
  rw [← List.append_assoc]
  exact if_neg h

theorem written_plain (places : Nat) (n : Int) : ∀ c ∈ written places n, Plain c := by
  have hsign : ∀ c ∈ (if n < 0 then ['-'] else []), Plain c := by
    intro c hc
    split at hc
    · exact Or.inr (Or.inr (List.mem_singleton.mp hc))
    · cases hc
  have hwhole : ∀ c ∈ Nat.toDigits 10 (n.natAbs / 10 ^ places), Plain c :=
    fun c hc => Or.inl (digits_all _ c hc)
  intro c hc
  by_cases hzero : n.natAbs % 10 ^ places = 0
  · rw [written_whole hzero, List.mem_append] at hc
    exact hc.elim (hsign c) (hwhole c)
  · simp only [written_pointed hzero, List.mem_append, List.mem_cons] at hc
    rcases hc with hc | hc | hc | hc
    · exact hsign c hc
    · exact hwhole c hc
    · exact Or.inr (Or.inl hc)
    · exact Or.inl (isDigit_of_mem_fractionDigits hc)

theorem written_ne_nil (places : Nat) (n : Int) : written places n ≠ [] := by
  have hdigits : Nat.toDigits 10 (n.natAbs / 10 ^ places) ≠ [] := Nat.toDigits_ne_nil
  by_cases hzero : n.natAbs % 10 ^ places = 0
  · rw [written_whole hzero]
    simp [hdigits]
  · rw [written_pointed hzero]
    simp

/-- **A written number is read as the number in the small unit**, and it can be held exactly. -/
theorem ofText_written [DecimalDigits] (places : Nat) (n : Int) : ∃ d : Decimal,
    ofText (String.ofList (written places n)) = some (.finite d) ∧
      d.value * ((10 ^ places : Nat) : Int) = n ∧ d.coefficient ≤ n.natAbs ∧
      -(places : Int) ≤ d.exponent ∧ d.exponent ≤ 0 := by
  have hsize := Nat.div_add_mod n.natAbs (10 ^ places)
  have hmod : n.natAbs % 10 ^ places < 10 ^ places := Nat.mod_lt _ (by positivity)
  obtain ⟨first, rest, hwhole⟩ := List.exists_cons_of_ne_nil
    (Nat.toDigits_ne_nil (n := n.natAbs / 10 ^ places) (b := 10))
  have hdigits := digits_all (n.natAbs / 10 ^ places)
  have hfirst : first.isDigit = true := hdigits first (by rw [hwhole]; exact List.mem_cons_self)
  have hsign : (if n < 0 then ['-'] else []) =
      if decide (n < 0) = true then ['-'] else [] := by simp
  rw [ofText_plain (written_plain places n)]
  by_cases hzero : n.natAbs % 10 ^ places = 0
  · refine ⟨⟨decide (n < 0), n.natAbs / 10 ^ places, 0⟩, ?_, value_signed ?_, Nat.div_le_self _ _,
      neg_nonpos.mpr (Int.natCast_nonneg places), le_refl 0⟩
    · rw [written_whole hzero, hsign, hwhole, read_signed _ hfirst, ← hwhole,
        readFinite_whole _ Nat.toDigits_ne_nil hdigits, Nat.ofDigitChars_ten_toDigits]
    · rw [hzero, add_zero] at hsize
      rw [zpow_zero, mul_one]
      exact_mod_cast (mul_comm _ _).trans hsize
  · have hplaces : 0 < places := by
      rcases Nat.eq_zero_or_pos places with rfl | hpos
      · rw [pow_zero, Nat.mod_one] at hzero
        exact absurd rfl hzero
      · exact hpos
    obtain ⟨zeros, hlength, hvalue⟩ :=
      coefficient_fractionDigits (n.natAbs / 10 ^ places) hplaces hmod
    rw [mul_comm, hsize] at hvalue
    have hfraction : ∀ c ∈ fractionDigits places (n.natAbs % 10 ^ places), c.isDigit = true :=
      fun _ hc => isDigit_of_mem_fractionDigits hc
    rw [written_pointed hzero]
    generalize fractionDigits places (n.natAbs % 10 ^ places) = fraction at *
    refine ⟨⟨decide (n < 0), Nat.ofDigitChars 10
      (Nat.toDigits 10 (n.natAbs / 10 ^ places) ++ fraction) 0, -fraction.length⟩, ?_,
      value_signed ?_, ?_, ?_, ?_⟩
    · rw [hsign, hwhole, List.cons_append, read_signed _ hfirst, ← List.cons_append, ← hwhole,
        readFinite_digits _ Nat.toDigits_ne_nil hdigits hfraction]
    · have hsplit : (10 : ℚ) ^ (-(fraction.length : Int)) * ((10 ^ places : Nat) : ℚ) =
          ((10 ^ zeros : Nat) : ℚ) := by
        rw [← hlength, pow_add, zpow_neg, zpow_natCast]
        push_cast
        field_simp
      rw [mul_assoc, hsplit, mul_comm]
      exact_mod_cast hvalue.symm
    · refine le_of_le_of_eq ?_ hvalue.symm
      exact Nat.le_mul_of_pos_left _ (by positivity)
    · show -(places : Int) ≤ -(fraction.length : Int)
      omega
    · show -(fraction.length : Int) ≤ 0
      omega

end FixedPoint

end Evleda
