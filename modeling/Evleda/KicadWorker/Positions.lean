/-
Decimal numerals read as whole units.

The board reader, the schematic reader and the report reader each multiply a decimal
number by a scale and take the product for an integer when it is one.  The product is
computed in the interpreter's context of 28 digits, so what is looked at is what it was
rounded to, and a product too large for the context raises an exception of its own.

The three convert one way, and differ in the errors they raise.  What they return is
said of the exact product alone: an integer of 64 bits is returned for every product
that is at most half a unit of rounding away from it.
-/
import Evleda.KicadIo.Sexpr
import Evleda.Lib.Decimal

namespace Evleda

open Outcome

/-! ### Scaling -/

namespace Scaling

/-- What goes wrong when a finite number is scaled. -/
inductive Fault
  | overflow
  | tooFine
  | outOfRange
  deriving DecidableEq

/-- The integers a signed 64-bit word holds. -/
def FitsInt64 (n : Int) : Prop := -(2 ^ 63) ≤ n ∧ n ≤ 2 ^ 63 - 1

instance (n : Int) : Decidable (FitsInt64 n) := inferInstanceAs (Decidable (_ ∧ _))

/-- The product of a number and the scale as an integer, by one of the conversions of an integral
number to an integer. -/
def toScaled (convert : Decimal → Int) (value : Decimal) (scale : Int) : Except Fault Int :=
  match Numeral.defaultContext.multiply value (Decimal.ofInt scale) with
  | none => .error .overflow
  | some scaled =>
      if scaled.value = scaled.toIntegral.value then
        if FitsInt64 (convert scaled) then .ok (convert scaled) else .error .outOfRange
      else .error .tooFine

/-- The product is too large for the context. -/
def Overflows (x : ℚ) : Prop := 2 * (10 : ℚ) ^ (1000000 : ℤ) ≤ 2 * |x| + 10 ^ (999972 : ℤ)

/-- The exponent of the unit that a product is rounded to. -/
def unit (x : ℚ) : Int := max (Int.log 10 |x| - 27) (-1000026)

/-- At most half a unit of rounding away. -/
def Near (x : ℚ) (n : Int) : Prop := 2 * |x - n| ≤ (10 : ℚ) ^ unit x

variable {convert : Decimal → Int} {value : Decimal} {scale : Int}

theorem toScaled_overflow :
    toScaled convert value scale = .error .overflow ↔ Overflows (value.value * scale) := by
  have hnone := @Decimal.Context.multiply_none_iff value (Decimal.ofInt scale) Numeral.defaultContext
  rw [Decimal.ofInt_value] at hnone
  unfold Overflows
  refine Iff.trans ?_ hnone
  unfold toScaled
  cases Numeral.defaultContext.multiply value (Decimal.ofInt scale) with
  | none => simp
  | some scaled =>
      by_cases hintegral : scaled.value = scaled.toIntegral.value
      · by_cases hrange : FitsInt64 (convert scaled)
        · simp [hintegral, hrange]
        · simp [hintegral, hrange]
      · simp [hintegral]

/-- **An integer of 64 bits is returned for all products that are near to it.** -/
theorem toScaled_ok (hconvert : ∀ (d : Decimal) (n : Int), d.value = n → convert d = n) {n : Int} :
    toScaled convert value scale = .ok n ↔ ¬ Overflows (value.value * scale) ∧ FitsInt64 n ∧
      Near (value.value * scale) n := by
  rw [← @toScaled_overflow convert]
  unfold toScaled
  cases hproduct : Numeral.defaultContext.multiply value (Decimal.ofInt scale) with
  | none => simp
  | some scaled =>
      have hnearest := Decimal.Context.multiply_nearest hproduct
      rw [Decimal.ofInt_value] at hnearest
      have hnear : FitsInt64 n → (scaled.value = n ↔ Near (value.value * scale) n) := by
        rintro ⟨hlow, hhigh⟩
        refine Decimal.Context.nearest_int_iff hnearest (by decide) (by decide) ?_
        have hlow' : (-(2 ^ 63) : ℚ) ≤ n := by exact_mod_cast hlow
        have hhigh' : (n : ℚ) ≤ 2 ^ 63 - 1 := by exact_mod_cast hhigh
        show |(n : ℚ)| ≤ 10 ^ 27 - 1
        rw [abs_le]
        constructor <;> norm_num at hlow' hhigh' ⊢ <;> linarith
      dsimp only
      by_cases hintegral : scaled.value = scaled.toIntegral.value
      · obtain ⟨m, hm⟩ := Decimal.toIntegral_eq_iff.mp hintegral
        rw [if_pos hintegral, hconvert scaled m hm]
        by_cases hrange : FitsInt64 m
        · rw [if_pos hrange]
          constructor
          · intro hsame
            cases hsame
            exact ⟨by simp, hrange, (hnear hrange).mp hm⟩
          · rintro ⟨-, hfits, hn⟩
            have hsame := hm.symm.trans ((hnear hfits).mpr hn)
            rw [Int.cast_inj.mp hsame]
        · rw [if_neg hrange]
          constructor
          · intro hsame
            cases hsame
          · rintro ⟨-, hfits, hn⟩
            have hsame := hm.symm.trans ((hnear hfits).mpr hn)
            rw [Int.cast_inj.mp hsame] at hrange
            exact absurd hfits hrange
      · rw [if_neg hintegral]
        constructor
        · intro hsame
          cases hsame
        · rintro ⟨-, hfits, hn⟩
          exact absurd (Decimal.toIntegral_eq_iff.mpr ⟨n, (hnear hfits).mpr hn⟩) hintegral

/-- What an exact conversion returns of a number, and that it raises nothing but its own errors. -/
def Exact {ε : Type} (own : ε → Prop) (outcome : Except ε Int) (x : ℚ) : Prop :=
  (∀ n : Int, outcome = .ok n ↔ x = n ∧ FitsInt64 n) ∧ ∀ e, outcome = .error e → own e

/-- Rounding neither makes the number overflow nor moves it to another integer of 64 bits. -/
def Survives (x : ℚ) : Prop := ¬ Overflows x ∧ ∀ n : Int, FitsInt64 n → Near x n → x = n

theorem near_self {x : ℚ} {n : Int} (h : x = n) : Near x n := by
  unfold Near
  rw [h, sub_self, abs_zero, mul_zero]
  exact (Decimal.unit_pos _).le

/-- **The conversion is exact when the product survives the rounding.** -/
theorem exact_iff {ε : Type} {own : ε → Prop} {outcome : Except ε Int} {word : Fault → ε}
    (hconvert : ∀ (d : Decimal) (n : Int), d.value = n → convert d = n)
    (houtcome : outcome = (toScaled convert value scale).mapError word)
    (hown : ∀ fault, own (word fault) ↔ fault ≠ .overflow) :
    Exact own outcome (value.value * scale) ↔ Survives (value.value * scale) := by
  have hok : ∀ n : Int, outcome = .ok n ↔ toScaled convert value scale = .ok n := by
    intro n
    rw [houtcome]
    cases toScaled convert value scale <;> simp [Except.mapError]
  have herror : (∀ e, outcome = .error e → own e) ↔ ¬ Overflows (value.value * scale) := by
    rw [← @toScaled_overflow convert, houtcome]
    cases toScaled convert value scale with
    | error fault => simp [Except.mapError, hown]
    | ok n => simp [Except.mapError]
  unfold Exact Survives
  rw [herror, and_comm]
  refine and_congr_right fun hfits => forall_congr' fun n => ?_
  rw [hok, toScaled_ok hconvert, and_iff_right hfits]
  constructor
  · intro hiff hrange hnear
    exact (hiff.mp ⟨hrange, hnear⟩).1
  · intro hsame
    exact ⟨fun h => ⟨hsame h.1 h.2, h.1⟩, fun h => ⟨h.2, near_self h.1⟩⟩

end Scaling

/-! ### The three readers -/

section Readers

variable [DecimalDigits]

namespace KicadIo

/-- How the board reader words a fault. -/
def scaledFailure (label : String) : Scaling.Fault → Failure
  | .overflow => .overflow
  | .tooFine => .invariantError (label ++ " is finer than the exact supported resolution")
  | .outOfRange => .invariantError (label ++ " exceeds signed 64-bit geometry")

/-- `_decimal_to_scaled` -/
def decimalToScaled (expression : SExpr) (scale : Int) (label : String) : Except Failure Int := do
  let text ← expression.scalarText label
  match Numeral.construct text with
  | some (.finite value) =>
      (Scaling.toScaled (fun scaled => scaled.toIntegral.toInt) value scale).mapError
        (scaledFailure label)
  | _ => .error (.syntaxError (label ++ " must be a finite decimal"))

/-- The errors of the exchange. -/
def Failure.IsOwn : Failure → Prop
  | .syntaxError _ | .invariantError _ | .unsupportedConstruct _ => True
  | _ => False

end KicadIo

namespace KicadProject

/-- What the reading of a number raises in a schematic. -/
inductive ScalarFailure
  | projectInvariantError (message : String)
  | decimalOverflow

def scaledFailure (label : String) : Scaling.Fault → ScalarFailure
  | .overflow => .decimalOverflow
  | .tooFine => .projectInvariantError (label ++ " is below the exact integer-unit resolution")
  | .outOfRange => .projectInvariantError (label ++ " exceeds signed 64-bit range")

/-- `_scaled_decimal`; it converts the product itself, not its integral value. -/
def scaledDecimal (text label : String) (scale : Int) : Except ScalarFailure Int :=
  match Numeral.construct text with
  | none => .error (.projectInvariantError (label ++ " must be a decimal number"))
  | some (.finite value) =>
      (Scaling.toScaled Decimal.toInt value scale).mapError (scaledFailure label)
  | some _ => .error (.projectInvariantError (label ++ " must be finite"))

def ScalarFailure.IsOwn : ScalarFailure → Prop
  | .projectInvariantError _ => True
  | .decimalOverflow => False

end KicadProject

namespace KicadWorker

/-- A value of a report, as it is decoded: a number with a point or an exponent is a decimal. -/
inductive Payload
  | null
  | bool (value : Bool)
  | int (value : Int)
  | decimal (value : Decimal)
  | str (value : String)
  | arr (items : List Payload)
  | obj (fields : List (String × Payload))

/-- What the reading of a report raises: its own error, and what nothing catches. -/
inductive ReportFailure
  | reportError (message : String)
  | decimalOverflow
  | invalidOperation
  | valueError
  | recursionError

def scaledFailure (label : String) : Scaling.Fault → ReportFailure
  | .overflow => .decimalOverflow
  | .tooFine => .reportError (label ++ " has sub-nanometre precision")
  | .outOfRange => .reportError (label ++ " exceeds signed 64-bit nanometres")

/-- `_position_nm` -/
def positionNm (value : Payload) (label : String) : Except ReportFailure Int :=
  let scaled := fun number : Decimal =>
    (Scaling.toScaled (fun scaled => scaled.toIntegral.toInt) number 1000000).mapError
      (scaledFailure label)
  match value with
  | .int n => scaled (Decimal.ofInt n)
  | .decimal number => scaled number
  | _ => .error (.reportError (label ++ " must be a finite JSON number"))

def ReportFailure.IsOwn : ReportFailure → Prop
  | .reportError _ => True
  | _ => False

/-- The rational that a number of a report denotes. -/
def Payload.rational : Payload → Option ℚ
  | .int n => some n
  | .decimal number => some number.value
  | _ => none

end KicadWorker

namespace Scaling

/-- The number is exact where it is constructed, and survives the rounding of its product; or it
cannot be constructed, and its product is no integer of 64 bits. -/
def Faithful (d : Decimal) (scale : Int) : Prop :=
  (Numeral.Representable d ∧ Survives (d.value * scale)) ∨
    (¬ Numeral.Representable d ∧ ¬ ∃ n : Int, d.value * scale = n ∧ FitsInt64 n)

omit [DecimalDigits] in
/-- A reader that refuses what cannot be constructed. -/
theorem exact_iff_faithful {ε : Type} {own : ε → Prop} {outcome : Except ε Int}
    {convert : Decimal → Int} {d : Decimal} {scale : Int} (word : Fault → ε) (refused : ε)
    (hconvert : ∀ (d : Decimal) (n : Int), d.value = n → convert d = n)
    (houtcome : outcome = if Numeral.Representable d then
      (toScaled convert d scale).mapError word else .error refused)
    (hown : ∀ fault, own (word fault) ↔ fault ≠ .overflow) (hrefused : own refused) :
    Exact own outcome (d.value * scale) ↔ Faithful d scale := by
  unfold Faithful
  by_cases hrepresentable : Numeral.Representable d
  · rw [if_pos hrepresentable] at houtcome
    rw [exact_iff hconvert houtcome hown]
    simp [hrepresentable]
  · rw [if_neg hrepresentable] at houtcome
    simp only [hrepresentable, false_and, not_false_eq_true, true_and, false_or, not_exists]
    rw [houtcome]
    constructor
    · intro h n hn
      cases (h.1 n).mpr hn
    · intro h
      refine ⟨fun n => ⟨fun hok => (by cases hok), fun hn => absurd hn (h n)⟩, ?_⟩
      intro e he
      cases he
      exact hrefused

omit [DecimalDigits] in
theorem integral_toInt (d : Decimal) (n : Int) (h : d.value = n) : d.toIntegral.toInt = n := by
  refine Decimal.toInt_eq ?_
  rw [← Decimal.toIntegral_eq_iff.mpr ⟨n, h⟩]
  exact h

theorem construct_eq {text : String} {d : Decimal} (h : Numeral.ofText text = some (.finite d)) :
    Numeral.construct text = if Numeral.Representable d then some (.finite d) else none := by
  rw [Numeral.construct, h]

theorem decimalToScaled_exact {expression : KicadIo.SExpr} {text label : String} {scale : Int}
    {d : Decimal} (htext : expression.scalarText label = .ok text)
    (hnumeral : Numeral.ofText text = some (.finite d)) :
    Exact KicadIo.Failure.IsOwn (KicadIo.decimalToScaled expression scale label)
      (d.value * scale) ↔ Faithful d scale := by
  refine exact_iff_faithful (KicadIo.scaledFailure label)
    (.syntaxError (label ++ " must be a finite decimal")) integral_toInt ?_ ?_ ?_
  · have hread : KicadIo.decimalToScaled expression scale label =
        match Numeral.construct text with
        | some (.finite value) =>
            (toScaled (fun scaled => scaled.toIntegral.toInt) value scale).mapError
              (KicadIo.scaledFailure label)
        | _ => .error (.syntaxError (label ++ " must be a finite decimal")) := by
      unfold KicadIo.decimalToScaled
      rw [htext]
      rfl
    rw [hread, construct_eq hnumeral]
    by_cases hrepresentable : Numeral.Representable d
    · rw [if_pos hrepresentable, if_pos hrepresentable]
    · rw [if_neg hrepresentable, if_neg hrepresentable]
  · intro fault
    cases fault <;> simp [KicadIo.scaledFailure, KicadIo.Failure.IsOwn]
  · simp [KicadIo.Failure.IsOwn]

theorem scaledDecimal_exact {text label : String} {scale : Int} {d : Decimal}
    (hnumeral : Numeral.ofText text = some (.finite d)) :
    Exact KicadProject.ScalarFailure.IsOwn (KicadProject.scaledDecimal text label scale)
      (d.value * scale) ↔ Faithful d scale := by
  refine exact_iff_faithful (KicadProject.scaledFailure label)
    (.projectInvariantError (label ++ " must be a decimal number")) (fun _ _ => Decimal.toInt_eq)
    ?_ ?_ ?_
  · rw [KicadProject.scaledDecimal, construct_eq hnumeral]
    by_cases hrepresentable : Numeral.Representable d
    · rw [if_pos hrepresentable, if_pos hrepresentable]
    · rw [if_neg hrepresentable, if_neg hrepresentable]
  · intro fault
    cases fault <;> simp [KicadProject.scaledFailure, KicadProject.ScalarFailure.IsOwn]
  · simp [KicadProject.ScalarFailure.IsOwn]

section

omit [DecimalDigits]

theorem positionNm_exact {value : KicadWorker.Payload} {label : String} {x : ℚ}
    (hvalue : value.rational = some x) :
    Exact KicadWorker.ReportFailure.IsOwn (KicadWorker.positionNm value label)
      (x * (1000000 : Int)) ↔ Survives (x * (1000000 : Int)) := by
  have hown : ∀ fault, KicadWorker.ReportFailure.IsOwn (KicadWorker.scaledFailure label fault) ↔
      fault ≠ .overflow := by
    intro fault
    cases fault <;> simp [KicadWorker.scaledFailure, KicadWorker.ReportFailure.IsOwn]
  cases value with
  | int n =>
      cases hvalue
      have hexact := @exact_iff _ (Decimal.ofInt n) 1000000 _ _
        (KicadWorker.positionNm (.int n) label) _ integral_toInt rfl hown
      rw [Decimal.ofInt_value] at hexact
      exact hexact
  | decimal number =>
      cases hvalue
      exact exact_iff integral_toInt rfl hown
  | _ => cases hvalue

theorem not_overflows {x : ℚ} (h : |x| ≤ 10 ^ (27 : ℤ)) : ¬ Overflows x := by
  have hone : (1 : ℚ) ≤ 10 ^ (999972 : ℤ) := one_le_zpow₀ (by norm_num) (by omega)
  have hsplit : (10 : ℚ) ^ (1000000 : ℤ) = 10 ^ (28 : ℤ) * 10 ^ (999972 : ℤ) := by
    rw [← zpow_add₀ (by norm_num)]
    rfl
  intro hover
  rw [Overflows, hsplit] at hover
  generalize (10 : ℚ) ^ (999972 : ℤ) = last at hone hover
  norm_num at h hover
  linarith

/-- An integer of 64 bits is read as itself. -/
theorem survives_int {n : Int} (h : FitsInt64 n) : Survives n := by
  have hbound : |(n : ℚ)| ≤ 2 ^ 63 := by
    have habs : |n| ≤ 2 ^ 63 := by
      rw [abs_le]
      exact ⟨h.1, by have := h.2; omega⟩
    exact_mod_cast habs
  refine ⟨not_overflows (le_trans hbound (by norm_num)), fun m _ hnear => ?_⟩
  have hlog : Int.log 10 |(n : ℚ)| ≤ 19 := by
    by_cases hzero : n = 0
    · rw [hzero, Int.cast_zero, abs_zero, Int.log_zero_right]
      omega
    · have hpos : (0 : ℚ) < |(n : ℚ)| := abs_pos.mpr (Int.cast_ne_zero.mpr hzero)
      have hlt := (Int.lt_zpow_iff_log_lt (b := 10) (x := 20) (by omega) hpos).mp
        (lt_of_le_of_lt hbound (by norm_num))
      omega
  have hunit : (10 : ℚ) ^ unit n ≤ 10 ^ (-1 : ℤ) := by
    refine zpow_le_zpow_right₀ (by norm_num) ?_
    unfold unit
    omega
  have hclose : |((n - m : Int) : ℚ)| < 1 := by
    unfold Near at hnear
    push_cast
    norm_num at hunit
    linarith
  have hsame : n - m = 0 := by
    have habs : |n - m| < 1 := by exact_mod_cast hclose
    exact Int.abs_lt_one_iff.mp habs
  rw [sub_eq_zero.mp hsame]

end

/-- **The three readers are exact on a numeral when its product survives the rounding to 28
digits.** -/
theorem readers_exact_iff :
    (∀ (expression : KicadIo.SExpr) (text label : String) (scale : Int) (d : Decimal),
      expression.scalarText label = .ok text → Numeral.ofText text = some (.finite d) →
        (Exact KicadIo.Failure.IsOwn (KicadIo.decimalToScaled expression scale label)
            (d.value * scale) ↔ Faithful d scale) ∧
          (Exact KicadProject.ScalarFailure.IsOwn (KicadProject.scaledDecimal text label scale)
            (d.value * scale) ↔ Faithful d scale)) ∧
      ∀ (value : KicadWorker.Payload) (label : String) (x : ℚ), value.rational = some x →
        (Exact KicadWorker.ReportFailure.IsOwn (KicadWorker.positionNm value label)
          (x * (1000000 : Int)) ↔ Survives (x * (1000000 : Int))) :=
  ⟨fun _ _ _ _ _ htext hnumeral => ⟨decimalToScaled_exact htext hnumeral,
    scaledDecimal_exact hnumeral⟩, fun _ _ _ hvalue => positionNm_exact hvalue⟩

end Scaling

end Readers

namespace Scaling

@[reducible] def asciiDigits : DecimalDigits := ⟨fun _ => none⟩

theorem readers_exact_iff_sample :
    letI := asciiDigits
    (Exact KicadIo.Failure.IsOwn
        (KicadIo.decimalToScaled (.quoted (String.ofList ['1', '.', '5'])) 1000000 "x")
        ((⟨false, 15, -1⟩ : Decimal).value * (1000000 : Int)) ↔ Faithful ⟨false, 15, -1⟩ 1000000) ∧
      (Exact KicadWorker.ReportFailure.IsOwn (KicadWorker.positionNm (.int 3) "x")
        ((3 : Int) * (1000000 : Int)) ↔ Survives ((3 : Int) * (1000000 : Int))) := by
  let _ := asciiDigits
  have hreaders := readers_exact_iff
  exact ⟨(hreaders.1 _ _ "x" 1000000 ⟨false, 15, -1⟩ rfl (by decide)).1,
    hreaders.2 (.int 3) "x" _ rfl⟩

/-- A millionth and 10⁻³⁵. -/
def finerThanUnit : Decimal := ⟨false, 10 ^ 29 + 1, -35⟩

theorem finerThanUnit_scaled : finerThanUnit.value * (1000000 : Int) = 1 + 10 ^ (-29 : ℤ) := by
  unfold finerThanUnit Decimal.value Decimal.magnitude
  norm_num

/-- A length that is no whole number of nanometres is read as one nanometre. -/
theorem finer_than_unit_accepted :
    letI := asciiDigits
    Numeral.ofText "0.00000100000000000000000000000000001" = some (.finite finerThanUnit) ∧
      KicadIo.decimalToScaled (.quoted "0.00000100000000000000000000000000001") 1000000 "at x" =
        .ok 1 ∧
      ¬ Exact KicadIo.Failure.IsOwn
        (KicadIo.decimalToScaled (.quoted "0.00000100000000000000000000000000001") 1000000 "at x")
        (finerThanUnit.value * (1000000 : Int)) := by
  let _ := asciiDigits
  have hnumeral : Numeral.ofText "0.00000100000000000000000000000000001" =
      some (.finite finerThanUnit) := by decide
  have hscaled : toScaled (fun scaled => scaled.toIntegral.toInt) finerThanUnit 1000000 = .ok 1 := by
    rw [toScaled_ok integral_toInt, finerThanUnit_scaled]
    refine ⟨not_overflows (by norm_num), by decide, ?_⟩
    have hlog : 0 ≤ Int.log 10 |(1 : ℚ) + 10 ^ (-29 : ℤ)| :=
      (Int.zpow_le_iff_le_log (b := 10) (by omega) (by norm_num)).mp (by norm_num)
    have hunit : (10 : ℚ) ^ (-27 : ℤ) ≤ 10 ^ unit (1 + 10 ^ (-29 : ℤ)) := by
      refine zpow_le_zpow_right₀ (by norm_num) ?_
      unfold unit
      omega
    refine le_trans ?_ hunit
    norm_num
  have hread : KicadIo.decimalToScaled (.quoted "0.00000100000000000000000000000000001") 1000000
      "at x" = .ok 1 := by
    have hconstruct : Numeral.construct "0.00000100000000000000000000000000001" =
        some (.finite finerThanUnit) := by
      rw [construct_eq hnumeral, if_pos (by decide)]
    show (match Numeral.construct "0.00000100000000000000000000000000001" with
      | some (.finite value) => (toScaled (fun scaled => scaled.toIntegral.toInt) value 1000000).mapError
          (KicadIo.scaledFailure "at x")
      | _ => .error (.syntaxError ("at x" ++ " must be a finite decimal"))) = _
    rw [hconstruct]
    simp only [hscaled]
    rfl
  refine ⟨hnumeral, hread, fun hexact => ?_⟩
  have hsame := ((hexact.1 1).mp hread).1
  rw [finerThanUnit_scaled] at hsame
  norm_num at hsame

end Scaling

end Evleda
