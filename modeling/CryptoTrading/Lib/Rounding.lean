import Mathlib.Algebra.Order.Round
import Mathlib.Data.Int.Log
import Mathlib.Data.Rat.Floor
import Mathlib.Tactic.Linarith
import Mathlib.Tactic.Positivity

/-!
# Rounding

Rational numbers are rounded to whole numbers by two rules for ties, to a number of decimal
digits, and to the 53 binary digits of a float.  What the proofs need of a rounding is how far it
goes and that it does not cross zero.

A float is the rational number it stands for.  `binary64` is right for results that are in the
range of floats; a sum of floats carries along what the rounding of each addition lost, as the
`sum` of Python does.
-/

namespace CryptoTrading.Lib

/-! ## §1 Whole numbers -/

/-- To the nearest integer, and to the even one of two. -/
def roundHalfEven (x : ℚ) : ℤ :=
  if x - ⌊x⌋ = 1 / 2 then 2 * ((⌊x⌋ + 1) / 2) else round x

theorem abs_roundHalfEven_sub_le (x : ℚ) : |(roundHalfEven x : ℚ) - x| ≤ 1 / 2 := by
  unfold roundHalfEven
  split
  case isTrue htie =>
    have heven : 2 * ((⌊x⌋ + 1) / 2) = ⌊x⌋ ∨ 2 * ((⌊x⌋ + 1) / 2) = ⌊x⌋ + 1 := by omega
    rcases heven with h | h
    · rw [h, abs_sub_comm, htie]
      norm_num
    · rw [h]
      push_cast
      rw [add_sub_right_comm, ← neg_sub, htie]
      norm_num
  case isFalse =>
    rw [abs_sub_comm]
    exact abs_sub_round x

theorem roundHalfEven_le {x : ℚ} {n : ℤ} (h : x < n + 1 / 2) : roundHalfEven x ≤ n := by
  have hclose := (abs_le.mp (abs_roundHalfEven_sub_le x)).2
  have hlt : (roundHalfEven x : ℚ) < (n + 1 : ℤ) := by
    push_cast
    linarith
  exact Int.lt_add_one_iff.mp (Int.cast_lt.mp hlt)

theorem le_roundHalfEven {x : ℚ} {n : ℤ} (h : n - 1 / 2 < x) : n ≤ roundHalfEven x := by
  have hclose := (abs_le.mp (abs_roundHalfEven_sub_le x)).1
  have hlt : ((n - 1 : ℤ) : ℚ) < roundHalfEven x := by
    push_cast
    linarith
  exact Int.sub_one_lt_iff.mp (Int.cast_lt.mp hlt)

@[simp] theorem roundHalfEven_intCast (n : ℤ) : roundHalfEven (n : ℚ) = n :=
  le_antisymm (roundHalfEven_le (by linarith)) (le_roundHalfEven (by linarith))

/-- To the nearest integer, and away from zero when there are two. -/
def roundHalfUp (x : ℚ) : ℤ := if x < 0 then -⌊-x + 1 / 2⌋ else ⌊x + 1 / 2⌋

theorem abs_floor_half_sub_le (x : ℚ) : |(⌊x + 1 / 2⌋ : ℚ) - x| ≤ 1 / 2 := by
  have hle := Int.floor_le (x + 1 / 2)
  have hlt := Int.lt_floor_add_one (x + 1 / 2)
  rw [abs_le]
  constructor <;> linarith

theorem abs_roundHalfUp_sub_le (x : ℚ) : |(roundHalfUp x : ℚ) - x| ≤ 1 / 2 := by
  unfold roundHalfUp
  split
  · have hneg := abs_floor_half_sub_le (-x)
    rw [← abs_neg] at hneg
    push_cast
    convert hneg using 2
    ring
  · exact abs_floor_half_sub_le x

/-! ## §2 Decimal digits -/

/-- `round(x, digits)`. -/
def roundTo (digits : ℕ) (x : ℚ) : ℚ := roundHalfEven (x * 10 ^ digits) / 10 ^ digits

/-- A rounding of a scaled number is close when that of whole numbers is. -/
theorem abs_scaled_sub_le {round : ℚ → ℤ} (hround : ∀ x, |(round x : ℚ) - x| ≤ 1 / 2)
    {scale : ℚ} (hscale : 0 < scale) (x : ℚ) :
    |round (x * scale) / scale - x| ≤ 1 / (2 * scale) := by
  have hfrac : round (x * scale) / scale - x = (round (x * scale) - x * scale) / scale := by
    field_simp
  rw [hfrac, abs_div, abs_of_pos hscale, div_le_div_iff₀ hscale (by positivity)]
  have hclose := mul_le_mul_of_nonneg_right (hround (x * scale)) hscale.le
  linarith

theorem abs_roundTo_sub_le (digits : ℕ) (x : ℚ) :
    |roundTo digits x - x| ≤ 1 / (2 * 10 ^ digits) :=
  abs_scaled_sub_le abs_roundHalfEven_sub_le (by positivity) x

/-- A number with no more digits stays as it is. -/
theorem roundTo_of_scaled {digits : ℕ} {x : ℚ} {n : ℤ} (h : x * 10 ^ digits = n) :
    roundTo digits x = x := by
  have hpos : (0 : ℚ) < 10 ^ digits := by positivity
  rw [roundTo, h, roundHalfEven_intCast, ← h, mul_div_cancel_right₀ x hpos.ne']

/-- Amounts that are rounded one by one add up to the sum of the amounts, up to what each rounding
    went. -/
theorem abs_sum_map_sub_le {A : Type} {f g : A → ℚ} {bound : ℚ} (h : ∀ a, |f a - g a| ≤ bound)
    (as : List A) : |(as.map f).sum - (as.map g).sum| ≤ as.length * bound := by
  induction as with
  | nil => simp
  | cons a rest ih =>
    simp only [List.map_cons, List.sum_cons, List.length_cons]
    push_cast
    calc
      _ = |(f a - g a) + ((rest.map f).sum - (rest.map g).sum)| := by
        congr 1
        ring
      _ ≤ |f a - g a| + |(rest.map f).sum - (rest.map g).sum| := abs_add_le _ _
      _ ≤ (rest.length + 1) * bound := by linarith [h a]

/-- What the last of the 53 binary digits of a number counts; it is fixed for the numbers next
    to zero. -/
def lastPlace (x : ℚ) : ℚ := 2 ^ max (Int.log 2 |x| - 52) (-1074)

/-- The float next to a number, and the one with an even last digit of two. -/
def binary64 (x : ℚ) : ℚ := roundHalfEven (x / lastPlace x) * lastPlace x

/-- One addition of `sum`, for a rounding `fl`: the sum so far, and what was lost on the way. -/
def addCompensated (fl : ℚ → ℚ) (acc : ℚ × ℚ) (x : ℚ) : ℚ × ℚ :=
  let sum := fl (acc.1 + x)
  let lost := if |x| ≤ |acc.1| then fl (fl (acc.1 - sum) + x) else fl (fl (x - sum) + acc.1)
  (sum, fl (acc.2 + lost))

/-- `sum(xs)` of floats. -/
def sumCompensated (fl : ℚ → ℚ) (xs : List ℚ) : ℚ :=
  let (sum, lost) := xs.foldl (addCompensated fl) (0, 0)
  fl (sum + lost)

theorem foldl_addCompensated_id (xs : List ℚ) (sum : ℚ) :
    xs.foldl (addCompensated id) (sum, 0) = (sum + xs.sum, 0) := by
  induction xs generalizing sum with
  | nil => simp
  | cons x rest ih =>
    have hstep : addCompensated id (sum, 0) x = (sum + x, 0) := by
      simp only [addCompensated, id_eq, Prod.mk.injEq, true_and]
      split <;> ring
    rw [List.foldl_cons, hstep, ih, List.sum_cons, add_assoc]

/-- Without rounding nothing is lost. -/
@[simp] theorem sumCompensated_id (xs : List ℚ) : sumCompensated id xs = xs.sum := by
  simp [sumCompensated, foldl_addCompensated_id]

end CryptoTrading.Lib
