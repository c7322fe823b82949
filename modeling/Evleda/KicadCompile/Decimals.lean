/-
Lengths and angles as decimal texts, and back.

The board writer, the schematic writer and the compiler each write a number of nanometres,
microdegrees or millionths in the unit of the file, and two readers take the texts back.
The three write one text.  It has no more digits than the number, so that nothing is rounded
when it is read, and the readers return the number.
-/
import Evleda.KicadWorker.Positions
import Evleda.Lib.FixedPoint

namespace Evleda

open FixedPoint (written)

/-- `str(fraction).rjust(places, "0").rstrip("0")` -/
def fractionText (places fraction : Nat) : String :=
  String.ofList (FixedPoint.stripZeros (Text.padded places fraction).toList)

namespace KicadIo

/-- `_scaled_atom` -/
def scaledAtom (value : Int) (scale : Nat) : Except Failure Atom :=
  let sign := if value < 0 then "-" else ""
  let integer := value.natAbs / scale
  let fraction := value.natAbs % scale
  if fraction = 0 then Atom.make (sign ++ toString integer)
  else
    let digits := fractionText ((toString scale).length - 1) fraction
    Atom.make (sign ++ toString integer ++ "." ++ digits)

/-- `_nm_atom` -/
def nmAtom (value : Int) : Except Failure Atom := scaledAtom value 1000000

end KicadIo

namespace KicadProject

/-- `_unit_text` -/
def unitText (value : Int) (scale : Nat) : String :=
  let whole := value.natAbs / scale
  let remainder := value.natAbs % scale
  let result := if remainder ≠ 0 then
      toString whole ++ "." ++ fractionText ((toString scale).length - 1) remainder
    else toString whole
  if value < 0 then "-" ++ result else result

end KicadProject

namespace KicadCompile

/-- `_nm_atom` -/
def nmAtom (value : Int) : Except KicadIo.Failure KicadIo.Atom :=
  let sign := if value < 0 then "-" else ""
  let whole := value.natAbs / 1000000
  let fraction := value.natAbs % 1000000
  if fraction = 0 then KicadIo.Atom.make (sign ++ toString whole)
  else KicadIo.Atom.make (sign ++ toString whole ++ "." ++ fractionText 6 fraction)

/-- `_nm_text`, which strips the zeros of the whole text -/
def nmText (value : Int) : String :=
  let sign := if value < 0 then "-" else ""
  let whole := value.natAbs / 1000000
  let fraction := value.natAbs % 1000000
  if fraction = 0 then sign ++ toString whole
  else
    let text := sign ++ toString whole ++ "." ++ Text.padded 6 fraction
    String.ofList (FixedPoint.stripZeros text.toList)

end KicadCompile

/-! ### One text -/

section Writers

variable {n : Int} {places : Nat}

theorem length_scale (places : Nat) : (toString (10 ^ places : Nat)).length - 1 = places := by
  have hdigits : (toString (10 ^ places : Nat)).length =
      (Nat.toDigits 10 (10 ^ places)).length := by
    rw [← String.length_toList]
    exact congrArg List.length Nat.toList_repr
  have hle : (Nat.toDigits 10 (10 ^ places)).length ≤ places + 1 :=
    (Nat.length_toDigits_le_iff (by decide) (by omega)).mpr
      (Nat.pow_lt_pow_right (by decide) (by omega))
  have hlt : 0 < places → ¬ (Nat.toDigits 10 (10 ^ places)).length ≤ places := by
    intro hpos hle
    exact absurd ((Nat.length_toDigits_le_iff (by decide) hpos).mp hle) (lt_irrefl _)
  have hpos : 0 < (Nat.toDigits 10 (10 ^ places)).length := Nat.length_toDigits_pos
  omega

theorem isAtomText_written (places : Nat) (n : Int) :
    KicadIo.IsAtomText (String.ofList (written places n)) := by
  refine ⟨?_, ?_⟩
  · intro hempty
    have hnil := congrArg String.toList hempty
    rw [String.toList_ofList] at hnil
    exact FixedPoint.written_ne_nil places n hnil
  · rw [String.toList_ofList, List.all_eq_true]
    intro c hc
    have hplain := FixedPoint.written_plain places n c hc
    have hbounds := hplain.toNat
    have hreserved : KicadIo.isReserved c = false := by
      have hne : ∀ d : Char, d.toNat < 45 → c ≠ d := by
        rintro d hd rfl
        omega
      simp [KicadIo.isReserved, hne '(' (by decide), hne ')' (by decide), hne '"' (by decide)]
    simp [KicadIo.endsAtom, hplain.not_space, hreserved]

theorem text_whole (h : n.natAbs % 10 ^ places = 0) :
    (if n < 0 then "-" else "") ++ toString (n.natAbs / 10 ^ places) =
      String.ofList (written places n) := by
  rw [← String.toList_inj, FixedPoint.written_whole h, String.toList_append, String.toList_ofList]
  congr 1
  · split <;> rfl
  · exact Nat.toList_repr

theorem text_pointed (h : n.natAbs % 10 ^ places ≠ 0) :
    (if n < 0 then "-" else "") ++ toString (n.natAbs / 10 ^ places) ++ "." ++
      fractionText places (n.natAbs % 10 ^ places) = String.ofList (written places n) := by
  rw [← String.toList_inj, FixedPoint.written_pointed h]
  simp only [String.toList_append, String.toList_ofList, fractionText, List.append_assoc]
  congr 1
  · split <;> rfl
  · congr 1
    exact Nat.toList_repr

/-- The board writer writes the number as it is written. -/
theorem scaledAtom_eq (n : Int) (places : Nat) :
    ∃ a, KicadIo.scaledAtom n (10 ^ places) = .ok a ∧
      a.value = String.ofList (written places n) := by
  refine ⟨⟨_, isAtomText_written places n⟩, ?_, rfl⟩
  unfold KicadIo.scaledAtom
  dsimp only
  rw [length_scale]
  split
  · rename_i hzero
    exact KicadIo.Atom.make_ok.mpr (text_whole hzero).symm
  · rename_i hrest
    exact KicadIo.Atom.make_ok.mpr (text_pointed hrest).symm

theorem unitText_eq (n : Int) (places : Nat) :
    KicadProject.unitText n (10 ^ places) = String.ofList (written places n) := by
  unfold KicadProject.unitText
  dsimp only
  rw [length_scale]
  by_cases hzero : n.natAbs % 10 ^ places = 0
  · rw [if_neg (not_not.mpr hzero), ← text_whole hzero]
    split
    · rfl
    · rw [String.empty_append]
  · rw [if_pos hzero, ← text_pointed hzero]
    split
    · simp only [String.append_assoc]
    · rw [String.empty_append]

/-- The compiler writes six digits behind the point in one place and no others. -/
theorem nmAtom_eq (n : Int) : KicadCompile.nmAtom n = KicadIo.scaledAtom n 1000000 := by
  have hlength : (toString (1000000 : Nat)).length - 1 = 6 := length_scale 6
  unfold KicadCompile.nmAtom KicadIo.scaledAtom
  rw [hlength]

theorem nmText_eq (n : Int) : KicadCompile.nmText n = String.ofList (written 6 n) := by
  unfold KicadCompile.nmText
  dsimp only
  split
  · rename_i hzero
    exact @text_whole n 6 hzero
  · rename_i hrest
    rw [← @text_pointed n 6 hrest, ← String.toList_inj, String.toList_ofList]
    simp only [String.toList_append, fractionText, String.toList_ofList]
    have hpoint : ".".toList = ['.'] := rfl
    rw [hpoint, List.append_assoc, List.singleton_append, FixedPoint.stripZeros_pointed,
      List.append_assoc _ ['.'], List.singleton_append]
    rfl

end Writers

/-! ### The readers -/

section Readers

open Scaling

variable [DecimalDigits] {n : Int} {places : Nat}

theorem faithful_written (hplaces : (places : Int) ≤ -Numeral.minEtiny) (hn : FitsInt64 n) :
    ∃ d : Decimal, Numeral.ofText (String.ofList (written places n)) = some (.finite d) ∧
      d.value * ((10 ^ places : Nat) : Int) = n ∧ Faithful d ((10 ^ places : Nat) : Int) := by
  obtain ⟨d, htext, hvalue, hsize, hlow, hhigh⟩ := FixedPoint.ofText_written places n
  refine ⟨d, htext, hvalue, Or.inl ⟨?_, ?_⟩⟩
  · have hlog : Nat.log 10 d.coefficient < 20 := by
      have hlt : d.coefficient < 10 ^ 20 := by
        unfold FitsInt64 at hn
        omega
      rcases Nat.eq_zero_or_pos d.coefficient with hzero | hpos
      · rw [hzero, Nat.log_zero_right]
        omega
      · exact Nat.log_lt_of_lt_pow hpos.ne' hlt
    unfold Numeral.minEtiny at hplaces
    unfold Numeral.Representable Decimal.digits Decimal.adjusted Numeral.maxPrec Numeral.minEtiny
    omega
  · rw [hvalue]
    exact survives_int hn

theorem decimalToScaled_written {expression : KicadIo.SExpr} {label : String}
    (hplaces : (places : Int) ≤ -Numeral.minEtiny) (hn : FitsInt64 n)
    (htext : expression.scalarText label = .ok (String.ofList (written places n))) :
    KicadIo.decimalToScaled expression ((10 ^ places : Nat) : Int) label = .ok n := by
  obtain ⟨d, hnumeral, hvalue, hfaithful⟩ := faithful_written hplaces hn
  exact (((decimalToScaled_exact htext hnumeral).mpr hfaithful).1 n).mpr ⟨hvalue, hn⟩

theorem scaledDecimal_written (label : String) (hplaces : (places : Int) ≤ -Numeral.minEtiny)
    (hn : FitsInt64 n) :
    KicadProject.scaledDecimal (String.ofList (written places n)) label
      ((10 ^ places : Nat) : Int) = .ok n := by
  obtain ⟨d, hnumeral, hvalue, hfaithful⟩ := faithful_written hplaces hn
  exact (((scaledDecimal_exact hnumeral).mpr hfaithful).1 n).mpr ⟨hvalue, hn⟩

/-- **Every length of 64 bits is written as a text that is read as the same length.**  The files
hold millimetres, degrees and ratios, a million units each; the compiler has a writer for boards
and one for schematics. -/
theorem lengths_read_back (n : Int) (hn : FitsInt64 n) (label : String) :
    (∃ a, KicadIo.scaledAtom n 1000000 = .ok a ∧
      KicadIo.decimalToScaled (.atom a) 1000000 label = .ok n) ∧
    KicadProject.scaledDecimal (KicadProject.unitText n 1000000) label 1000000 = .ok n ∧
    (∃ a, KicadCompile.nmAtom n = .ok a ∧
      KicadIo.decimalToScaled (.atom a) 1000000 label = .ok n) ∧
    KicadProject.scaledDecimal (KicadCompile.nmText n) label 1000000 = .ok n := by
  have hplaces : ((6 : Nat) : Int) ≤ -Numeral.minEtiny := by decide
  obtain ⟨a, hwritten, hvalue⟩ := scaledAtom_eq n 6
  have hboard : KicadIo.decimalToScaled (.atom a) 1000000 label = .ok n :=
    decimalToScaled_written hplaces hn (congrArg Except.ok hvalue)
  have hsheet := scaledDecimal_written label hplaces hn
  refine ⟨⟨a, hwritten, hboard⟩, ?_, ⟨a, (nmAtom_eq n).trans hwritten, hboard⟩, ?_⟩
  · rw [← unitText_eq n 6] at hsheet
    exact hsheet
  · rw [← nmText_eq n] at hsheet
    exact hsheet

end Readers

/-- Half a unit below zero. -/
theorem lengths_read_back_sample :
    letI := Scaling.asciiDigits
    (KicadProject.unitText (-500000) 1000000 = "-0.5" ∧
      KicadProject.scaledDecimal (KicadProject.unitText (-500000) 1000000) "x" 1000000 =
        .ok (-500000)) ∧
    KicadCompile.nmText (-500000) = "-0.5" ∧
      KicadProject.scaledDecimal (KicadCompile.nmText (-500000)) "x" 1000000 = .ok (-500000) := by
  let _ := Scaling.asciiDigits
  obtain ⟨-, hsheet, -, hcompiled⟩ := lengths_read_back (-500000) (by decide) "x"
  exact ⟨⟨by decide, hsheet⟩, by decide, hcompiled⟩

end Evleda
