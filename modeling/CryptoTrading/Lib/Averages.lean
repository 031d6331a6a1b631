import Mathlib.Algebra.Order.BigOperators.Group.List
import Mathlib.Algebra.Order.Field.Basic
import Mathlib.Order.Interval.Set.Defs
import Mathlib.Tactic.Linarith
import Mathlib.Tactic.Positivity
import Mathlib.Tactic.Ring

/-!
# Averages and exponential smoothing

An average of values of an interval lies in the interval, and so does every value of an
exponential smoothing that starts in it: each step is a convex combination of the value before
and the new one.
-/

namespace CryptoTrading.Lib

variable {K : Type} [Field K] [LinearOrder K] [IsStrictOrderedRing K]

/-- The values lie between the bounds. -/
def AllBetween (lo hi : K) (xs : List K) : Prop := ∀ x ∈ xs, lo ≤ x ∧ x ≤ hi

omit [Field K] [IsStrictOrderedRing K] in
theorem AllBetween.of_subset {lo hi : K} {xs ys : List K} (h : AllBetween lo hi xs)
    (hsub : ∀ y ∈ ys, y ∈ xs) : AllBetween lo hi ys :=
  fun y hy => h y (hsub y hy)

/-- An average lies between the bounds of its values. -/
theorem average_between {lo hi : K} {xs : List K} (h : AllBetween lo hi xs) {n : K}
    (hlen : n = xs.length) (hpos : 0 < n) : lo ≤ xs.sum / n ∧ xs.sum / n ≤ hi := by
  have hlow : xs.length • lo ≤ xs.sum := List.card_nsmul_le_sum xs lo fun x hx => (h x hx).1
  have hhigh : xs.sum ≤ xs.length • hi := List.sum_le_card_nsmul xs hi fun x hx => (h x hx).2
  rw [nsmul_eq_mul, ← hlen] at hlow hhigh
  constructor
  · rw [le_div_iff₀ hpos, mul_comm]
    exact hlow
  · rw [div_le_iff₀ hpos, mul_comm]
    exact hhigh

/-- A step from one value towards another stays between the bounds of both. -/
theorem step_between {lo hi a x m : K} (ha : lo ≤ a ∧ a ≤ hi) (hx : lo ≤ x ∧ x ≤ hi)
    (hm : 0 ≤ m ∧ m ≤ 1) : lo ≤ (x - a) * m + a ∧ (x - a) * m + a ≤ hi := by
  have hconvex : (x - a) * m + a = x * m + a * (1 - m) := by ring
  have hm' : 0 ≤ 1 - m := sub_nonneg.mpr hm.2
  rw [hconvex]
  constructor
  · calc lo = lo * m + lo * (1 - m) := by ring
      _ ≤ x * m + a * (1 - m) :=
        add_le_add (mul_le_mul_of_nonneg_right hx.1 hm.1) (mul_le_mul_of_nonneg_right ha.1 hm')
  · calc x * m + a * (1 - m) ≤ hi * m + hi * (1 - m) :=
        add_le_add (mul_le_mul_of_nonneg_right hx.2 hm.1) (mul_le_mul_of_nonneg_right ha.2 hm')
      _ = hi := by ring

/-- Move towards each value in turn, by the part `m` of the way. -/
def smooth (m a : K) (xs : List K) : K := xs.foldl (fun a x => (x - a) * m + a) a

/-- Smoothing never leaves the bounds of its start and its values. -/
theorem smooth_between {lo hi m : K} (hm : 0 ≤ m ∧ m ≤ 1) {xs : List K}
    (hxs : AllBetween lo hi xs) {a : K} (ha : lo ≤ a ∧ a ≤ hi) :
    lo ≤ smooth m a xs ∧ smooth m a xs ≤ hi := by
  induction xs generalizing a with
  | nil => exact ha
  | cons x rest ih =>
    obtain ⟨hx, hrest⟩ := List.forall_mem_cons.mp hxs
    exact ih hrest (step_between ha hx hm)

/-- The usual factor for `n` values is a part of the way. -/
theorem smoothing_factor {n : K} (hn : 1 ≤ n) : 0 ≤ 2 / (n + 1) ∧ 2 / (n + 1) ≤ 1 := by
  have hpos : 0 < n + 1 := by linarith
  exact ⟨by positivity, (div_le_one hpos).mpr (by linarith)⟩

end CryptoTrading.Lib
