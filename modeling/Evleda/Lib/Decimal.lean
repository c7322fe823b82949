/-
Decimal numbers, and arithmetic of a limited precision.

A finite number is a sign, a coefficient and an exponent, and denotes a rational.  An
operation computes its exact result and fits it into a context: the result is rounded
to the nearest multiple of a unit, a tie going to the even multiple, and is refused
where it is too large for the context.  The unit depends on the size of the exact
result alone.

So what an operation returns can be said of rationals: an even multiple of the unit is
returned for whatever is at most half a unit away from it.
-/
import Evleda.Lib.Text
import Mathlib.Algebra.Order.Field.Rat
import Mathlib.Data.Int.Log
import Mathlib.Data.Rat.Floor
import Mathlib.Tactic.FieldSimp
import Mathlib.Tactic.Linarith
import Mathlib.Tactic.Ring

namespace Evleda

/-! ### Rounding to a unit -/

section Nearest

variable {K : Type*} [Field K] [LinearOrder K] [IsStrictOrderedRing K] {unit x y : K}

/-- `y` is a multiple of the unit as near to `x` as any; of two as near, it is the even one. -/
def Nearest (unit x y : K) : Prop :=
  ∃ m : ℤ, y = m * unit ∧ 2 * |x - y| ≤ unit ∧ (2 * |x - y| = unit → Even m)

namespace Nearest

omit [IsStrictOrderedRing K] in
theorem neg (h : Nearest unit x y) : Nearest unit (-x) (-y) := by
  obtain ⟨m, rfl, hnear, heven⟩ := h
  have hdistance : |(-x) - (-(m * unit))| = |x - m * unit| := by
    rw [neg_sub_neg, abs_sub_comm]
  refine ⟨-m, by push_cast; ring, ?_, ?_⟩
  · rw [hdistance]
    exact hnear
  · rw [hdistance, even_neg]
    exact heven

theorem self (hunit : 0 < unit) (m : ℤ) : Nearest unit (m * unit) (m * unit) := by
  refine ⟨m, rfl, ?_, ?_⟩
  · simpa using hunit.le
  · intro htie
    simp only [sub_self, abs_zero, mul_zero] at htie
    exact absurd htie hunit.ne

/-- An even multiple is not above `y` when it is at most half a unit above `x`. -/
theorem le_iff (hunit : 0 < unit) (h : Nearest unit x y) {k : ℤ} (hk : Even k) :
    k * unit ≤ y ↔ 2 * (k * unit) ≤ 2 * x + unit := by
  obtain ⟨m, rfl, hnear, heven⟩ := h
  have hbounds := abs_le.mp (show |x - m * unit| ≤ unit / 2 by linarith)
  constructor
  · intro hle
    linarith
  · intro hle
    by_contra hlt
    have hm : m < k := by
      by_contra hge
      exact hlt (mul_le_mul_of_nonneg_right (Int.cast_le.mpr (by omega)) hunit.le)
    have hstep : ((m : K) + 1) * unit ≤ k * unit :=
      mul_le_mul_of_nonneg_right (by exact_mod_cast hm) hunit.le
    -- `x` is half way between `m` and the next multiple, which is `k`
    have htie : 2 * |x - m * unit| = unit := by
      rw [abs_of_nonneg (by linarith)]
      linarith
    have hnext : (k : K) * unit = (m + 1) * unit := by linarith
    have hsucc : k = m + 1 := by exact_mod_cast mul_right_cancel₀ hunit.ne' hnext
    have hodd := (heven htie).add_one
    rw [← hsucc] at hodd
    exact Int.not_even_iff_odd.mpr hodd hk

theorem ge_iff (hunit : 0 < unit) (h : Nearest unit x y) {k : ℤ} (hk : Even k) :
    y ≤ k * unit ↔ 2 * x ≤ 2 * (k * unit) + unit := by
  have hneg := h.neg.le_iff hunit hk.neg
  push_cast at hneg
  constructor
  · intro hle
    linarith [hneg.mp (by linarith)]
  · intro hle
    linarith [hneg.mpr (by linarith)]

/-- **An even multiple is the result for all that is at most half a unit away.** -/
theorem eq_iff (hunit : 0 < unit) (h : Nearest unit x y) {k : ℤ} (hk : Even k) :
    y = k * unit ↔ 2 * |x - k * unit| ≤ unit := by
  rw [le_antisymm_iff, h.ge_iff hunit hk, h.le_iff hunit hk]
  constructor
  · rintro ⟨hle, hge⟩
    have habs : |x - k * unit| ≤ unit / 2 := abs_le.mpr ⟨by linarith, by linarith⟩
    linarith
  · intro hnear
    have hbounds := abs_le.mp (show |x - k * unit| ≤ unit / 2 by linarith)
    exact ⟨by linarith, by linarith⟩

end Nearest

end Nearest

/-- `m / n` as an integer: the nearest one, or of two the even one. -/
def halfEven (m n : Nat) : Nat :=
  if 2 * (m % n) < n ∨ (2 * (m % n) = n ∧ m / n % 2 = 0) then m / n else m / n + 1

theorem halfEven_nearest {K : Type*} [Field K] [LinearOrder K] [IsStrictOrderedRing K] {unit : K}
    (hunit : 0 < unit) {m n : Nat} (hn : 0 < n) :
    Nearest (n * unit) (m * unit) (halfEven m n * (n * unit)) := by
  have hdivision : (m : K) = n * (m / n : Nat) + (m % n : Nat) := by
    exact_mod_cast (Nat.div_add_mod m n).symm
  have hremainder : (0 : K) ≤ (m % n : Nat) := Nat.cast_nonneg _
  unfold halfEven
  by_cases hdown : 2 * (m % n) < n ∨ (2 * (m % n) = n ∧ m / n % 2 = 0)
  · rw [if_pos hdown]
    have hdistance : (m : K) * unit - (m / n : Nat) * (n * unit) = (m % n : Nat) * unit := by
      rw [hdivision]
      ring
    have hle : 2 * ((m % n : Nat) : K) ≤ n := by exact_mod_cast (by omega : 2 * (m % n) ≤ n)
    refine ⟨((m / n : Nat) : ℤ), by rw [Int.cast_natCast], ?_, ?_⟩
    · rw [hdistance, abs_of_nonneg (by positivity)]
      nlinarith
    · intro htie
      rw [hdistance, abs_of_nonneg (by positivity), ← mul_assoc] at htie
      have heq : 2 * (m % n) = n := by exact_mod_cast mul_right_cancel₀ hunit.ne' htie
      rcases hdown with hlt | ⟨-, heven⟩
      · omega
      · exact_mod_cast Nat.even_iff.mpr heven
  · rw [if_neg hdown]
    have hlt : m % n < n := Nat.mod_lt m hn
    have hdistance : ((m / n + 1 : Nat) : K) * (n * unit) - m * unit =
        ((n - m % n : Nat) : K) * unit := by
      rw [hdivision, Nat.cast_sub hlt.le]
      push_cast
      ring
    have hle : 2 * ((n - m % n : Nat) : K) ≤ n := by
      exact_mod_cast (by omega : 2 * (n - m % n) ≤ n)
    have hnonneg : (0 : K) ≤ (n - m % n : Nat) := Nat.cast_nonneg _
    refine ⟨((m / n + 1 : Nat) : ℤ), by rw [Int.cast_natCast], ?_, ?_⟩
    · rw [abs_sub_comm, hdistance, abs_of_nonneg (by positivity)]
      nlinarith
    · intro htie
      rw [abs_sub_comm, hdistance, abs_of_nonneg (by positivity), ← mul_assoc] at htie
      have heq : 2 * (n - m % n) = n := by exact_mod_cast mul_right_cancel₀ hunit.ne' htie
      have hodd : (m / n + 1) % 2 = 0 := by omega
      exact_mod_cast Nat.even_iff.mpr hodd

/-! ### Finite numbers -/

/-- A finite decimal number. -/
structure Decimal where
  negative : Bool
  coefficient : Nat
  exponent : Int
  deriving DecidableEq

namespace Decimal

variable {d a b : Decimal}

/-- The number without its sign. -/
def magnitude (d : Decimal) : ℚ := d.coefficient * (10 : ℚ) ^ d.exponent

/-- The rational that the number denotes. -/
def value (d : Decimal) : ℚ := if d.negative then -d.magnitude else d.magnitude

/-- The number of digits of the coefficient; zero has one. -/
def digits (d : Decimal) : Nat := Nat.log 10 d.coefficient + 1

/-- The exponent of the first digit. -/
def adjusted (d : Decimal) : Int := d.exponent + Nat.log 10 d.coefficient

/-- The number rounded to a unit that is not finer than its own. -/
def quantize (d : Decimal) (exponent : Int) : Decimal where
  negative := d.negative
  coefficient := halfEven d.coefficient (10 ^ (exponent - d.exponent).toNat)
  exponent := exponent

/-- `to_integral_value` -/
def toIntegral (d : Decimal) : Decimal := if 0 ≤ d.exponent then d else d.quantize 0

/-- `int(d)` -/
def toInt (d : Decimal) : Int :=
  let size : Nat := if 0 ≤ d.exponent then d.coefficient * 10 ^ d.exponent.toNat
    else d.coefficient / 10 ^ (-d.exponent).toNat
  if d.negative then -size else size

theorem unit_pos (u : Int) : (0 : ℚ) < 10 ^ u := zpow_pos (by norm_num) u

theorem magnitude_nonneg (d : Decimal) : 0 ≤ d.magnitude := by
  have hunit := unit_pos d.exponent
  unfold magnitude
  positivity

theorem abs_value (d : Decimal) : |d.value| = d.magnitude := by
  unfold value
  by_cases hsign : d.negative = true
  · rw [if_pos hsign, abs_neg, abs_of_nonneg d.magnitude_nonneg]
  · rw [if_neg hsign, abs_of_nonneg d.magnitude_nonneg]

/-- A number is at least the power of ten of its first digit, and below the next one. -/
theorem magnitude_bounds (h : d.coefficient ≠ 0) :
    (10 : ℚ) ^ d.adjusted ≤ d.magnitude ∧ d.magnitude < 10 ^ (d.adjusted + 1) := by
  have hunit := unit_pos d.exponent
  have hten : (10 : ℚ) ≠ 0 := by norm_num
  have hlow : (10 : ℚ) ^ Nat.log 10 d.coefficient ≤ d.coefficient := by
    exact_mod_cast Nat.pow_log_le_self 10 h
  have hhigh : (d.coefficient : ℚ) < 10 ^ (Nat.log 10 d.coefficient + 1) := by
    exact_mod_cast Nat.lt_pow_succ_log_self (by omega) d.coefficient
  have hsplit : (10 : ℚ) ^ d.adjusted = 10 ^ Nat.log 10 d.coefficient * 10 ^ d.exponent := by
    rw [adjusted, add_comm, zpow_add₀ hten, zpow_natCast]
  have hsplit' : (10 : ℚ) ^ (d.adjusted + 1) =
      10 ^ (Nat.log 10 d.coefficient + 1) * 10 ^ d.exponent := by
    rw [zpow_add₀ hten, hsplit, pow_succ, zpow_one]
    ring
  rw [hsplit, hsplit', magnitude]
  exact ⟨mul_le_mul_of_nonneg_right hlow hunit.le, mul_lt_mul_of_pos_right hhigh hunit⟩

theorem adjusted_eq_log (h : d.coefficient ≠ 0) : d.adjusted = Int.log 10 d.magnitude := by
  obtain ⟨hlow, hhigh⟩ := magnitude_bounds h
  have hpos : 0 < d.magnitude := lt_of_lt_of_le (unit_pos _) hlow
  have hle := (Int.zpow_le_iff_le_log (b := 10) (by omega) hpos).mp hlow
  have hlt := (Int.lt_zpow_iff_log_lt (b := 10) (by omega) hpos).mp hhigh
  omega

/-- A number is a multiple of every unit that is not coarser than its own. -/
theorem magnitude_eq_mul {u : Int} (h : u ≤ d.exponent) :
    d.magnitude = ((d.coefficient * 10 ^ (d.exponent - u).toNat : Nat) : ℤ) * 10 ^ u := by
  have hten : (10 : ℚ) ≠ 0 := by norm_num
  have hsplit : (10 : ℚ) ^ d.exponent = 10 ^ (d.exponent - u).toNat * 10 ^ u := by
    rw [← zpow_natCast, Int.toNat_of_nonneg (by omega), ← zpow_add₀ hten]
    congr 1
    omega
  rw [magnitude, hsplit]
  push_cast
  ring

theorem quantize_nearest {u : Int} (h : d.exponent ≤ u) :
    Nearest ((10 : ℚ) ^ u) d.magnitude (d.quantize u).magnitude := by
  have hten : (10 : ℚ) ≠ 0 := by norm_num
  have hsplit : (10 : ℚ) ^ u = (10 ^ (u - d.exponent).toNat : Nat) * 10 ^ d.exponent := by
    rw [Nat.cast_pow, ← zpow_natCast, Int.toNat_of_nonneg (by omega), Nat.cast_ofNat,
      ← zpow_add₀ hten]
    congr 1
    omega
  unfold magnitude quantize
  rw [hsplit]
  exact halfEven_nearest (unit_pos _) (by positivity)

/-! ### Contexts -/

/-- The precision and the range of exponents that results are fitted into. -/
structure Context where
  prec : Nat
  emin : Int
  emax : Int
  prec_pos : 1 ≤ prec
  emin_le : emin ≤ emax

namespace Context

variable {c : Context}

/-- The exponent of the finest unit. -/
def etiny (c : Context) : Int := c.emin - (c.prec - 1)

/-- The exponent of the unit that a number of this size is rounded to. -/
def unit (c : Context) (x : ℚ) : Int := max (Int.log 10 |x| - (c.prec - 1)) c.etiny

/-- A coefficient that a carry made one digit too long is written with one digit less. -/
def carry (c : Context) (d : Decimal) : Decimal :=
  if d.coefficient = 10 ^ c.prec then
    { d with
      coefficient := 10 ^ (c.prec - 1)
      exponent := d.exponent + 1 }
  else d

/-- The number as the context holds it; a number that is too large overflows. -/
def fit (c : Context) (d : Decimal) : Option Decimal :=
  if d.coefficient = 0 then
    some { d with exponent := max c.etiny (min d.exponent c.emax) }
  else if c.emax < d.adjusted then none
  else
    let exponent := max (d.exponent + d.digits - c.prec) c.etiny
    if d.exponent < exponent then
      let rounded := c.carry (d.quantize exponent)
      if c.emax < rounded.adjusted then none else some rounded
    else some d

/-- `a * b` -/
def multiply (c : Context) (a b : Decimal) : Option Decimal :=
  c.fit {
    negative := a.negative != b.negative
    coefficient := a.coefficient * b.coefficient
    exponent := a.exponent + b.exponent }

/-- The coefficient without its last zeros, and how many there were. -/
def trimmed (coefficient : Nat) : Nat → Nat × Nat
  | 0 => (coefficient, 0)
  | fuel + 1 =>
      if coefficient % 10 = 0 then
        let (rest, zeros) := trimmed (coefficient / 10) fuel
        (rest, zeros + 1)
      else (coefficient, 0)

/-- `normalize`: the number fitted, without last zeros. -/
def reduce (c : Context) (d : Decimal) : Option Decimal :=
  (c.fit d).map fun fitted =>
    if fitted.coefficient = 0 then { fitted with exponent := 0 }
    else
      let (coefficient, zeros) := trimmed fitted.coefficient fitted.digits
      { fitted with
        coefficient := coefficient
        exponent := fitted.exponent + zeros }

/-- The coefficient at a finer exponent. -/
def scaledTo (d : Decimal) (exponent : Int) : Nat :=
  d.coefficient * 10 ^ (d.exponent - exponent).toNat

/-- `a + b` -/
def add (c : Context) (a b : Decimal) : Option Decimal :=
  let exponent := min a.exponent b.exponent
  let signed := fun d : Decimal => if d.negative then -(scaledTo d exponent : Int) else scaledTo d exponent
  let sum := signed a + signed b
  c.fit ⟨decide (sum < 0), sum.natAbs, exponent⟩

/-- `a % b`; nothing where the quotient has more digits than the context. -/
def remainder (c : Context) (a b : Decimal) : Option Decimal :=
  let exponent := min a.exponent b.exponent
  if 10 ^ c.prec ≤ scaledTo a exponent / scaledTo b exponent then none
  else c.fit ⟨a.negative, scaledTo a exponent % scaledTo b exponent, exponent⟩

/-- What a context without bounds on the exponent would round to. -/
def rounded (c : Context) (d : Decimal) : Decimal :=
  if d.exponent < c.unit d.value then d.quantize (c.unit d.value) else d

theorem unit_eq (h : d.coefficient ≠ 0) :
    c.unit d.value = max (d.exponent + d.digits - c.prec) c.etiny := by
  rw [unit, abs_value, ← adjusted_eq_log h, adjusted, digits]
  congr 1
  omega

theorem rounded_nearest : Nearest ((10 : ℚ) ^ c.unit d.value) d.magnitude (c.rounded d).magnitude := by
  unfold rounded
  by_cases hround : d.exponent < c.unit d.value
  · rw [if_pos hround]
    exact quantize_nearest hround.le
  · rw [if_neg hround]
    have hself := Nearest.self (unit_pos (c.unit d.value))
      ((d.coefficient * 10 ^ (d.exponent - c.unit d.value).toNat : Nat) : ℤ)
    rw [← magnitude_eq_mul (not_lt.mp hround)] at hself
    exact hself

theorem carry_magnitude : (c.carry d).magnitude = d.magnitude := by
  unfold carry
  by_cases hcarry : d.coefficient = 10 ^ c.prec
  · rw [if_pos hcarry]
    unfold magnitude
    obtain ⟨digits, hdigits⟩ : ∃ digits, c.prec = digits + 1 := ⟨c.prec - 1, by have := c.prec_pos; omega⟩
    rw [hcarry, hdigits, Nat.add_sub_cancel, zpow_add₀ (by norm_num), zpow_one, pow_succ]
    push_cast
    ring
  · rw [if_neg hcarry]

theorem carry_coefficient : (c.carry d).coefficient = 0 ↔ d.coefficient = 0 := by
  unfold carry
  by_cases hcarry : d.coefficient = 10 ^ c.prec
  · rw [if_pos hcarry, hcarry]
    simp
  · rw [if_neg hcarry]

theorem rounded_of_zero (h : d.coefficient = 0) : (c.rounded d).magnitude = 0 := by
  unfold rounded
  by_cases hround : d.exponent < c.unit d.value
  · rw [if_pos hround]
    simp [magnitude, quantize, h, halfEven]
  · rw [if_neg hround]
    simp [magnitude, h]

/-- The number is in range when its first digit is. -/
theorem lt_adjusted_iff {m : Int} (h : d.coefficient = 0 → d.exponent ≤ m) :
    m < d.adjusted ↔ (10 : ℚ) ^ (m + 1) ≤ d.magnitude := by
  by_cases hzero : d.coefficient = 0
  · have hmagnitude : d.magnitude = 0 := by simp [magnitude, hzero]
    have hadjusted : d.adjusted = d.exponent := by simp [adjusted, hzero]
    rw [hmagnitude, hadjusted]
    have hunit := unit_pos (m + 1)
    exact ⟨fun hlt => absurd (h hzero) (by omega), fun hle => absurd hle (by linarith)⟩
  · obtain ⟨hlow, hhigh⟩ := magnitude_bounds hzero
    constructor
    · intro hlt
      exact le_trans (zpow_le_zpow_right₀ (by norm_num) (by omega)) hlow
    · intro hle
      have hlt := (zpow_lt_zpow_iff_right₀ (by norm_num : (1 : ℚ) < 10)).mp (lt_of_le_of_lt hle hhigh)
      omega

/-- **What fits is rounded and keeps its sign.** -/
theorem fit_some {r : Decimal} (h : c.fit d = some r) :
    r.negative = d.negative ∧ r.magnitude = (c.rounded d).magnitude := by
  unfold fit at h
  by_cases hzero : d.coefficient = 0
  · rw [if_pos hzero, Option.some.injEq] at h
    rw [rounded_of_zero hzero, ← h]
    exact ⟨rfl, by simp [magnitude, hzero]⟩
  rw [if_neg hzero] at h
  by_cases hlarge : c.emax < d.adjusted
  · rw [if_pos hlarge] at h
    cases h
  rw [if_neg hlarge] at h
  simp only [← unit_eq hzero] at h
  unfold rounded
  by_cases hround : d.exponent < c.unit d.value
  · rw [if_pos hround] at h ⊢
    by_cases hover : c.emax < (c.carry (d.quantize (c.unit d.value))).adjusted
    · rw [if_pos hover] at h
      cases h
    · rw [if_neg hover, Option.some.injEq] at h
      rw [← h, carry_magnitude]
      refine ⟨?_, rfl⟩
      unfold carry
      by_cases hcarry : (d.quantize (c.unit d.value)).coefficient = 10 ^ c.prec
      · rw [if_pos hcarry]
        rfl
      · rw [if_neg hcarry]
        rfl
  · rw [if_neg hround, Option.some.injEq] at h
    rw [if_neg hround, h]
    exact ⟨rfl, rfl⟩

theorem unit_le (hzero : d.coefficient ≠ 0) (h : ¬ c.emax < d.adjusted) :
    c.unit d.value ≤ c.emax + 1 - c.prec := by
  have hrange := c.emin_le
  rw [unit, abs_value, ← adjusted_eq_log hzero, etiny]
  omega

/-- What is not too large before it is rounded overflows when it is too large after it. -/
theorem fit_none_of_small (hzero : d.coefficient ≠ 0) (h : ¬ c.emax < d.adjusted) :
    c.fit d = none ↔ (10 : ℚ) ^ (c.emax + 1) ≤ (c.rounded d).magnitude := by
  have hunit := unit_le hzero h
  have hprec := c.prec_pos
  unfold fit rounded
  rw [if_neg hzero, if_neg h]
  simp only [← unit_eq hzero]
  by_cases hround : d.exponent < c.unit d.value
  · rw [if_pos hround, if_pos hround, ← @carry_magnitude (d.quantize (c.unit d.value)) c,
      ← lt_adjusted_iff]
    · by_cases hover : c.emax < (c.carry (d.quantize (c.unit d.value))).adjusted
      · simp [hover]
      · simp [hover]
    · intro hnothing
      have hsame : (d.quantize (c.unit d.value)).coefficient ≠ 10 ^ c.prec := by
        rw [carry_coefficient] at hnothing
        rw [hnothing]
        exact (pow_pos (by norm_num) _).ne
      rw [carry, if_neg hsame]
      show c.unit d.value ≤ c.emax
      omega
  · have hin : ¬ (10 : ℚ) ^ (c.emax + 1) ≤ d.magnitude :=
      fun hle => h ((lt_adjusted_iff fun hz => absurd hz hzero).mpr hle)
    simp [hround, hin]

/-- **A number overflows when it is not below the largest one by more than half a unit.** -/
theorem fit_none_iff : c.fit d = none ↔
    2 * (10 : ℚ) ^ (c.emax + 1) ≤ 2 * d.magnitude + 10 ^ (c.emax + 1 - c.prec) := by
  have hprec := c.prec_pos
  have hten : (1 : ℚ) < 10 := by norm_num
  have hsmaller : (10 : ℚ) ^ (c.emax + 1 - c.prec) ≤ 10 ^ c.emax :=
    zpow_le_zpow_right₀ hten.le (by omega)
  have hstep : (10 : ℚ) ^ (c.emax + 1) = 10 * 10 ^ c.emax := by
    rw [zpow_add₀ (by norm_num), zpow_one, mul_comm]
  have hlast := unit_pos c.emax
  by_cases hzero : d.coefficient = 0
  · have hmagnitude : d.magnitude = 0 := by simp [magnitude, hzero]
    rw [fit, if_pos hzero, hmagnitude, hstep]
    constructor
    · intro h
      cases h
    · intro h
      linarith
  by_cases hlarge : c.emax < d.adjusted
  · have hle : (10 : ℚ) ^ (c.emax + 1) ≤ d.magnitude :=
      (lt_adjusted_iff fun hz => absurd hz hzero).mp hlarge
    have hpos := unit_pos (c.emax + 1 - c.prec)
    rw [fit, if_neg hzero, if_pos hlarge]
    exact ⟨fun _ => by linarith, fun _ => rfl⟩
  · have hunit := unit_le hzero hlarge
    obtain ⟨k, hk⟩ : ∃ k : Nat, c.emax + 1 = c.unit d.value + (k + 1 : Nat) :=
      ⟨(c.emax - c.unit d.value).toNat, by push_cast; omega⟩
    have heven : Even ((10 ^ (k + 1) : Nat) : ℤ) := by
      rw [Nat.cast_pow, pow_succ]
      exact (by decide : Even ((10 : Nat) : ℤ)).mul_left _
    have hmultiple : (10 : ℚ) ^ (c.emax + 1) =
        (((10 ^ (k + 1) : Nat) : ℤ) : ℚ) * 10 ^ c.unit d.value := by
      rw [hk, zpow_add₀ (by norm_num), zpow_natCast]
      push_cast
      ring
    rw [fit_none_of_small hzero hlarge, hmultiple,
      rounded_nearest.le_iff (unit_pos _) heven, ← hmultiple]
    constructor
    · intro hle
      have hcoarser : (10 : ℚ) ^ c.unit d.value ≤ 10 ^ (c.emax + 1 - c.prec) :=
        zpow_le_zpow_right₀ hten.le hunit
      linarith
    · intro hle
      -- the number has its first digit where the largest one has it
      have hfirst : (10 : ℚ) ^ (c.emax - 1 + 1) ≤ d.magnitude := by
        rw [sub_add_cancel]
        linarith
      have hadjusted : c.emax - 1 < d.adjusted :=
        (lt_adjusted_iff fun hz => absurd hz hzero).mpr hfirst
      have hsame : c.emax + 1 - c.prec ≤ c.unit d.value := by
        rw [Context.unit, abs_value, ← adjusted_eq_log hzero]
        omega
      have hfiner : (10 : ℚ) ^ (c.emax + 1 - c.prec) ≤ 10 ^ c.unit d.value :=
        zpow_le_zpow_right₀ hten.le hsame
      linarith

/-- **What fits is nearest to the exact number.** -/
theorem fit_nearest {r : Decimal} (h : c.fit d = some r) :
    Nearest ((10 : ℚ) ^ c.unit d.value) d.value r.value := by
  obtain ⟨hsign, hmagnitude⟩ := fit_some h
  have hnearest : Nearest ((10 : ℚ) ^ c.unit d.value) d.magnitude (c.rounded d).magnitude :=
    rounded_nearest
  rw [← hmagnitude] at hnearest
  have hvalue : r.value = if d.negative then -r.magnitude else r.magnitude := by rw [value, hsign]
  rw [hvalue]
  by_cases hnegative : d.negative = true
  · rw [if_pos hnegative, show d.value = -d.magnitude from if_pos hnegative]
    rw [show d.value = -d.magnitude from if_pos hnegative] at hnearest
    exact hnearest.neg
  · rw [if_neg hnegative, show d.value = d.magnitude from if_neg hnegative]
    rw [show d.value = d.magnitude from if_neg hnegative] at hnearest
    exact hnearest

/-- **An integer of fewer digits than the context has is the result for all that is at most half a
unit away.** -/
theorem nearest_int_iff {x y : ℚ} (h : Nearest ((10 : ℚ) ^ c.unit x) x y) (hprec : 1 < c.prec)
    (htiny : c.etiny < 0) {n : ℤ} (hn : |(n : ℚ)| ≤ 10 ^ (c.prec - 1) - 1) :
    y = n ↔ 2 * |x - n| ≤ 10 ^ c.unit x := by
  have hpos := unit_pos (c.unit x)
  by_cases hunit : c.unit x < 0
  · obtain ⟨k, hk⟩ : ∃ k : Nat, -c.unit x = (k + 1 : Nat) :=
      ⟨(-c.unit x - 1).toNat, by push_cast; omega⟩
    have heven : Even (n * (10 ^ (k + 1) : Nat) : ℤ) := by
      rw [Nat.cast_pow, pow_succ, ← mul_assoc]
      exact (by decide : Even ((10 : Nat) : ℤ)).mul_left _
    have hmultiple : (n : ℚ) = ((n * (10 ^ (k + 1) : Nat) : ℤ) : ℚ) * 10 ^ c.unit x := by
      have hcancel : (10 : ℚ) ^ (k + 1) * 10 ^ c.unit x = 1 := by
        rw [← zpow_natCast, ← hk, ← zpow_add₀ (by norm_num), neg_add_cancel, zpow_zero]
      push_cast
      rw [mul_assoc, hcancel, mul_one]
    have hiff := h.eq_iff hpos heven
    rw [← hmultiple] at hiff
    exact hiff
  · constructor
    · rintro rfl
      obtain ⟨m, -, hnear, -⟩ := h
      exact hnear
    · intro hnear
      exfalso
      -- the number has too many digits to be near to such an integer
      have hlog : c.unit x = Int.log 10 |x| - (c.prec - 1) := by
        unfold Context.unit at hunit ⊢
        omega
      have hx : x ≠ 0 := by
        rintro rfl
        rw [hlog, abs_zero, Int.log_zero_right] at hunit
        omega
      have hlow : (10 : ℚ) ^ (c.prec - 1) * 10 ^ c.unit x ≤ |x| := by
        have hfirst := Int.zpow_log_le_self (b := 10) (by omega) (abs_pos.mpr hx)
        have hsplit : Int.log 10 |x| = ((c.prec - 1 : Nat) : ℤ) + c.unit x := by
          rw [hlog]
          omega
        rw [hsplit, zpow_add₀ (by norm_num), zpow_natCast] at hfirst
        exact_mod_cast hfirst
      have hone : (1 : ℚ) ≤ 10 ^ c.unit x := one_le_zpow₀ (by norm_num) (by omega)
      have hten : (1 : ℚ) ≤ 10 ^ (c.prec - 1) := one_le_pow₀ (by norm_num)
      have htriangle : |x| ≤ |x - n| + |(n : ℚ)| := by
        simpa using abs_add_le (x - n) n
      nlinarith

theorem multiply_value (a b : Decimal) :
    value {
      negative := a.negative != b.negative
      coefficient := a.coefficient * b.coefficient
      exponent := a.exponent + b.exponent } = a.value * b.value := by
  have hmagnitude : ((a.coefficient * b.coefficient : Nat) : ℚ) * 10 ^ (a.exponent + b.exponent) =
      a.magnitude * b.magnitude := by
    rw [zpow_add₀ (by norm_num), magnitude, magnitude]
    push_cast
    ring
  unfold value
  show (if (a.negative != b.negative) = true then
    -(((a.coefficient * b.coefficient : Nat) : ℚ) * 10 ^ (a.exponent + b.exponent))
    else ((a.coefficient * b.coefficient : Nat) : ℚ) * 10 ^ (a.exponent + b.exponent)) = _
  rw [hmagnitude]
  cases a.negative <;> cases b.negative <;> simp

theorem multiply_none_iff : c.multiply a b = none ↔
    2 * (10 : ℚ) ^ (c.emax + 1) ≤ 2 * |a.value * b.value| + 10 ^ (c.emax + 1 - c.prec) := by
  unfold multiply
  rw [fit_none_iff, ← abs_value, multiply_value]

theorem multiply_nearest {r : Decimal} (h : c.multiply a b = some r) :
    Nearest ((10 : ℚ) ^ c.unit (a.value * b.value)) (a.value * b.value) r.value := by
  unfold multiply at h
  have hnearest := fit_nearest h
  rw [multiply_value] at hnearest
  exact hnearest

end Context

/-! ### Integers -/

theorem exists_int_iff : (∃ n : ℤ, d.value = n) ↔ ∃ n : Nat, d.magnitude = n := by
  rw [← abs_value]
  constructor
  · rintro ⟨n, hn⟩
    exact ⟨n.natAbs, by rw [hn, Nat.cast_natAbs, Int.cast_abs]⟩
  · rintro ⟨n, hn⟩
    rcases abs_choice d.value with habs | habs
    · exact ⟨n, by rw [← habs, hn, Int.cast_natCast]⟩
    · exact ⟨-n, by rw [← neg_neg d.value, ← habs, hn, Int.cast_neg, Int.cast_natCast]⟩

theorem magnitude_of_nonneg (h : 0 ≤ d.exponent) :
    d.magnitude = (d.coefficient * 10 ^ d.exponent.toNat : Nat) := by
  have hsplit := magnitude_eq_mul h
  rw [zpow_zero, mul_one, sub_zero, Int.cast_natCast] at hsplit
  exact hsplit

/-- A number with digits behind the point is a natural number when they are all zero. -/
theorem magnitude_eq_nat_iff (h : d.exponent < 0) {n : Nat} :
    d.magnitude = n ↔ d.coefficient = n * 10 ^ (-d.exponent).toNat := by
  have hcancel : (10 : ℚ) ^ d.exponent * (10 ^ (-d.exponent).toNat : Nat) = 1 := by
    rw [Nat.cast_pow, ← zpow_natCast, Int.toNat_of_nonneg (by omega), Nat.cast_ofNat,
      ← zpow_add₀ (by norm_num), add_neg_cancel, zpow_zero]
  unfold magnitude
  constructor
  · intro hn
    have hscaled : (d.coefficient : ℚ) = n * (10 ^ (-d.exponent).toNat : Nat) := by
      rw [← hn, mul_assoc, hcancel, mul_one]
    exact_mod_cast hscaled
  · intro hn
    rw [hn, Nat.cast_mul, mul_assoc, mul_comm _ ((10 : ℚ) ^ d.exponent), hcancel, mul_one]

theorem halfEven_mul {n m : Nat} (hm : 0 < m) : halfEven (n * m) m = n := by
  unfold halfEven
  rw [Nat.mul_mod_left, Nat.mul_div_cancel n hm, if_pos (Or.inl (by omega))]

/-- **A number is equal to its integral value when it is an integer.** -/
theorem toIntegral_eq_iff : d.value = d.toIntegral.value ↔ ∃ n : ℤ, d.value = n := by
  unfold toIntegral
  by_cases hexponent : 0 ≤ d.exponent
  · rw [if_pos hexponent]
    refine ⟨fun _ => exists_int_iff.mpr ⟨_, magnitude_of_nonneg hexponent⟩, fun _ => rfl⟩
  · rw [if_neg hexponent, not_le] at *
    constructor
    · intro hsame
      rw [hsame]
      exact exists_int_iff.mpr ⟨_, magnitude_of_nonneg (le_refl 0)⟩
    · intro hinteger
      obtain ⟨n, hn⟩ := exists_int_iff.mp hinteger
      have hcoefficient := (magnitude_eq_nat_iff hexponent).mp hn
      have hquantized : (d.quantize 0).magnitude = d.magnitude := by
        rw [hn, magnitude_of_nonneg (le_refl 0)]
        unfold quantize
        rw [hcoefficient, zero_sub, halfEven_mul (by positivity)]
        simp
      unfold value
      rw [hquantized]
      rfl

theorem toInt_eq {n : ℤ} (h : d.value = n) : d.toInt = n := by
  obtain ⟨m, hm⟩ := exists_int_iff.mp ⟨n, h⟩
  have hsize : (if 0 ≤ d.exponent then d.coefficient * 10 ^ d.exponent.toNat
      else d.coefficient / 10 ^ (-d.exponent).toNat) = m := by
    by_cases hexponent : 0 ≤ d.exponent
    · rw [magnitude_of_nonneg hexponent] at hm
      rw [if_pos hexponent]
      exact_mod_cast hm
    · rw [if_neg hexponent, (magnitude_eq_nat_iff (not_le.mp hexponent)).mp hm,
        Nat.mul_div_cancel _ (by positivity)]
  unfold toInt
  simp only [hsize]
  unfold value at h
  rw [hm] at h
  by_cases hnegative : d.negative = true
  · rw [if_pos hnegative] at h ⊢
    exact_mod_cast h
  · rw [if_neg hnegative] at h ⊢
    exact_mod_cast h

/-- `format(d, "f")` -/
def fixedText (d : Decimal) : String :=
  let digits := Nat.toDigits 10 d.coefficient
  let sign := if d.negative then ['-'] else []
  if 0 ≤ d.exponent then
    if d.coefficient = 0 then String.ofList (sign ++ ['0'])
    else String.ofList (sign ++ digits ++ List.replicate d.exponent.toNat '0')
  else
    let places := (-d.exponent).toNat
    let padded := List.replicate (places + 1 - digits.length) '0' ++ digits
    String.ofList (sign ++ padded.take (padded.length - places) ++ '.' ::
      padded.drop (padded.length - places))

/-- `Decimal(n)` -/
def ofInt (n : Int) : Decimal := ⟨decide (n < 0), n.natAbs, 0⟩

@[simp] theorem ofInt_value (n : Int) : (ofInt n).value = n := by
  unfold value magnitude ofInt
  simp only [zpow_zero, mul_one, decide_eq_true_eq, Nat.cast_natAbs, Int.cast_abs]
  by_cases hnegative : n < 0
  · rw [if_pos hnegative, abs_of_neg (by exact_mod_cast hnegative), neg_neg]
  · rw [if_neg hnegative, abs_of_nonneg (by exact_mod_cast not_lt.mp hnegative)]

end Decimal

/-! ### Numerals -/

/-- The decimal digits of the interpreter's Unicode database beyond ASCII. -/
class DecimalDigits where
  /-- `unicodedata.decimal(c)` -/
  digitOf : Char → Option (Fin 10)

/-- What a text denotes. -/
inductive Numeral
  | finite (d : Decimal)
  | infinity (negative : Bool)
  | nan (negative signaling : Bool) (payload : Nat)
  deriving DecidableEq

namespace Numeral

def splitSign : List Char → Bool × List Char
  | '+' :: rest => (false, rest)
  | '-' :: rest => (true, rest)
  | cs => (false, cs)

/-- An exponent part, or nothing at all. -/
def readExponent : List Char → Option Int
  | [] => some 0
  | indicator :: rest =>
      if indicator = 'e' ∨ indicator = 'E' then
        let (negative, digits) := splitSign rest
        if digits ≠ [] ∧ digits.all Char.isDigit then
          let size : Nat := Nat.ofDigitChars 10 digits 0
          some (if negative then -size else size)
        else none
      else none

/-- Digits, with a point among them or not, and an exponent part. -/
def readFinite (negative : Bool) (cs : List Char) : Option Numeral :=
  let whole := cs.takeWhile Char.isDigit
  let rest := cs.dropWhile Char.isDigit
  let (fraction, tail) := match rest with
    | '.' :: behind => (behind.takeWhile Char.isDigit, behind.dropWhile Char.isDigit)
    | _ => ([], rest)
  if whole ++ fraction = [] then none
  else (readExponent tail).map fun exponent => .finite {
    negative := negative
    coefficient := Nat.ofDigitChars 10 (whole ++ fraction) 0
    exponent := exponent - fraction.length }

/-- A numeric string of ASCII characters. -/
def read (cs : List Char) : Option Numeral :=
  let (negative, unsigned) := splitSign cs
  let lower := unsigned.map Char.toLower
  if lower = ['i', 'n', 'f'] ∨ lower = ['i', 'n', 'f', 'i', 'n', 'i', 't', 'y'] then
    some (.infinity negative)
  else if lower.take 3 = ['n', 'a', 'n'] then
    if (lower.drop 3).all Char.isDigit then
      some (.nan negative false (Nat.ofDigitChars 10 (lower.drop 3) 0))
    else none
  else if lower.take 4 = ['s', 'n', 'a', 'n'] then
    if (lower.drop 4).all Char.isDigit then
      some (.nan negative true (Nat.ofDigitChars 10 (lower.drop 4) 0))
    else none
  else readFinite negative unsigned

/-- One character in ASCII: any white space is a space, and any decimal digit is a digit. -/
def ascii [DecimalDigits] (c : Char) : Option Char :=
  if c.toNat < 128 then some c
  else if Text.isSpace c then some ' '
  else (DecimalDigits.digitOf c).map fun digit => Nat.digitChar digit

/-- The number that a text denotes: white space around it and underscores in it do not count. -/
def ofText [DecimalDigits] (text : String) : Option Numeral :=
  let stripped := (text.toList.dropWhile Text.isSpace).rdropWhile Text.isSpace
  ((stripped.filter (· ≠ '_')).mapM ascii).bind read

/-- `decimal.MAX_PREC` and `decimal.MAX_EMAX` -/
def maxPrec : Nat := 999999999999999999

/-- `decimal.MIN_ETINY` -/
def minEtiny : Int := -1999999999999999997

/-- The number can be held without rounding it. -/
def Representable (d : Decimal) : Prop :=
  d.digits ≤ maxPrec ∧ minEtiny ≤ d.exponent ∧ d.adjusted ≤ maxPrec

instance (d : Decimal) : Decidable (Representable d) := by
  unfold Representable
  infer_instance

/-- `Decimal(text)`; nothing where it raises `InvalidOperation`. -/
def construct [DecimalDigits] (text : String) : Option Numeral :=
  match ofText text with
  | some (.finite d) => if Representable d then some (.finite d) else none
  | some (.nan negative signaling payload) =>
      if Nat.log 10 payload < maxPrec then some (.nan negative signaling payload) else none
  | other => other

/-- The context that the interpreter starts with. -/
def defaultContext : Decimal.Context where
  prec := 28
  emin := -999999
  emax := 999999
  prec_pos := by omega
  emin_le := by omega

end Numeral

end Evleda
