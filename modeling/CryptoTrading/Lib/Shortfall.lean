import CryptoTrading.Lib.RunningPeak
import Mathlib.Algebra.Order.Group.MinMax

/-!
# A stock that cannot fall below nothing

A stock takes in and gives out.  What is asked for beyond its level is not given and counts as
shortfall.  After any history the shortfall is the deepest that the balance of the changes has
been below nothing (`Stock.isGreatest_shortfall`), and the level is that balance with the shortfall
made up (`Stock.after_balance`).
-/

namespace CryptoTrading.Lib

variable {K : Type} [AddCommGroup K] [LinearOrder K] [IsOrderedAddMonoid K]

structure Stock (K : Type) where
  level : K
  shortfall : K

namespace Stock

/-- A change of the level, down to nothing at most. -/
def move (s : Stock K) (change : K) : Stock K :=
  ⟨max 0 (s.level + change), s.shortfall + max 0 (-(s.level + change))⟩

/-- The stock after a history of changes. -/
def after (s : Stock K) (changes : List K) : Stock K := changes.foldl move s

/-- How far the balance is below nothing, change by change. -/
def deficits (owed : K) : List K → List K
  | [] => []
  | change :: rest => (owed - change) :: deficits (owed - change) rest

/-- A shortfall is made up by the same amount. -/
theorem move_balance (s : Stock K) (change : K) :
    (s.move change).shortfall - (s.move change).level = s.shortfall - s.level - change := by
  have hparts : max 0 (-(s.level + change)) - max 0 (s.level + change) = -(s.level + change) := by
    rcases le_total 0 (s.level + change) with h | h
    · rw [max_eq_left (neg_nonpos.mpr h), max_eq_right h, zero_sub]
    · rw [max_eq_right (neg_nonneg.mpr h), max_eq_left h, sub_zero]
  calc (s.move change).shortfall - (s.move change).level
      = s.shortfall + (max 0 (-(s.level + change)) - max 0 (s.level + change)) :=
        add_sub_assoc _ _ _
    _ = s.shortfall - s.level - change := by
        rw [hparts, ← sub_eq_add_neg, sub_add_eq_sub_sub]

/-- A change raises the shortfall to the new deficit, if that is deeper. -/
theorem move_shortfall (s : Stock K) (change : K) :
    (s.move change).shortfall = max s.shortfall (s.shortfall - s.level - change) := by
  show s.shortfall + max 0 (-(s.level + change)) = _
  rw [← max_add_add_left, add_zero, ← sub_eq_add_neg, sub_add_eq_sub_sub]

/-- **The level is the balance of the changes with the shortfall made up.** -/
theorem after_balance (s : Stock K) (changes : List K) :
    (s.after changes).shortfall - (s.after changes).level =
      s.shortfall - s.level - changes.sum := by
  induction changes generalizing s with
  | nil => simp [after]
  | cons change rest ih =>
    have hrest := ih (s.move change)
    rw [move_balance, sub_sub] at hrest
    rw [List.sum_cons]
    exact hrest

/-- The shortfall, as the peak of the deficits. -/
theorem after_shortfall (s : Stock K) (changes : List K) :
    (s.after changes).shortfall =
      highest s.shortfall (deficits (s.shortfall - s.level) changes) := by
  induction changes generalizing s with
  | nil => rfl
  | cons change rest ih =>
    have hrest := ih (s.move change)
    rw [move_balance, move_shortfall] at hrest
    exact hrest

omit [LinearOrder K] [IsOrderedAddMonoid K] in
/-- The deficits are those of the pasts of the history. -/
theorem mem_deficits {owed deficit : K} {changes : List K} :
    deficit ∈ deficits owed changes ↔
      ∃ past, past ≠ [] ∧ past <+: changes ∧ deficit = owed - past.sum := by
  induction changes generalizing owed with
  | nil =>
    constructor
    · intro h
      cases h
    · rintro ⟨past, hne, hpast, -⟩
      exact absurd (List.prefix_nil.mp hpast) hne
  | cons change rest ih =>
    rw [deficits, List.mem_cons, ih]
    constructor
    · rintro (rfl | ⟨past, -, hpast, rfl⟩)
      · exact ⟨[change], by simp, by simp, by simp⟩
      · refine ⟨change :: past, by simp, List.cons_prefix_cons.mpr ⟨rfl, hpast⟩, ?_⟩
        rw [List.sum_cons, sub_sub]
    · rintro ⟨past, hne, hpast, rfl⟩
      obtain rfl | ⟨tail, rfl, htail⟩ := List.prefix_cons_iff.mp hpast
      · exact absurd rfl hne
      · rw [List.sum_cons, ← sub_sub]
        cases tail with
        | nil => exact .inl (by simp)
        | cons next tail => exact .inr ⟨next :: tail, by simp, htail, rfl⟩

/-- **The shortfall of a stock that was empty is the deepest that the history has ever been in
    deficit**, which is at least the deficit of its beginning. -/
theorem isGreatest_shortfall (changes : List K) :
    IsGreatest {deficit | ∃ past, past <+: changes ∧ deficit = -past.sum}
      ((⟨0, 0⟩ : Stock K).after changes).shortfall := by
  rw [after_shortfall, sub_self]
  refine ⟨?_, ?_⟩
  · rcases highest_mem 0 (deficits 0 changes) with hstart | hmem
    · exact ⟨[], List.nil_prefix, by simpa using hstart⟩
    · obtain ⟨past, -, hpast, heq⟩ := mem_deficits.mp hmem
      exact ⟨past, hpast, by rw [heq, zero_sub]⟩
  · rintro deficit ⟨past, hpast, rfl⟩
    by_cases hne : past = []
    · simpa [hne] using start_le_highest 0 (deficits 0 changes)
    · exact le_highest 0 (mem_deficits.mpr ⟨past, hne, hpast, by rw [zero_sub]⟩)

end Stock

end CryptoTrading.Lib
