import Mathlib.Algebra.Order.BigOperators.Group.List
import Mathlib.Algebra.Order.Group.Defs
import Mathlib.Algebra.Order.Monoid.Unbundled.Basic
import Mathlib.Algebra.Order.Group.Unbundled.Basic

/-!
# Depletion of a queue of quantities

A queue of labelled quantities is used up from the front: `deplete q` removes the
entries that `q` covers and takes the rest of `q` from the next one.  Depleting twice is
depleting by the sum, and what is appended later is not touched while the queue covers
the demand.  So a queue that is filled and depleted in turn ends as if everything had
been filled first.
-/

namespace CryptoTrading.Lib

variable {A K : Type} [AddCommGroup K] [LinearOrder K] [IsOrderedAddMonoid K]

/-- Take `q` from the front of the queue. -/
def deplete (q : K) : List (A × K) → List (A × K)
  | [] => []
  | (a, x) :: rest => if x ≤ q then deplete (q - x) rest else (a, x - q) :: rest

/-- Every entry has something left. -/
def AllPositive (queue : List (A × K)) : Prop := ∀ e ∈ queue, 0 < e.2

/-- The quantity in the queue. -/
def queueTotal (queue : List (A × K)) : K := (queue.map Prod.snd).sum

omit [LinearOrder K] [IsOrderedAddMonoid K] in
@[simp] theorem queueTotal_nil : queueTotal ([] : List (A × K)) = 0 := rfl

omit [LinearOrder K] [IsOrderedAddMonoid K] in
@[simp] theorem queueTotal_cons (e : A × K) (rest : List (A × K)) :
    queueTotal (e :: rest) = e.2 + queueTotal rest := by
  simp [queueTotal]

omit [LinearOrder K] [IsOrderedAddMonoid K] in
theorem queueTotal_append (xs ys : List (A × K)) :
    queueTotal (xs ++ ys) = queueTotal xs + queueTotal ys := by
  simp [queueTotal]

omit [IsOrderedAddMonoid K] in
theorem allPositive_cons {e : A × K} {rest : List (A × K)} :
    AllPositive (e :: rest) ↔ 0 < e.2 ∧ AllPositive rest :=
  List.forall_mem_cons

omit [IsOrderedAddMonoid K] in
theorem AllPositive.append {xs ys : List (A × K)} (hx : AllPositive xs) (hy : AllPositive ys) :
    AllPositive (xs ++ ys) := by
  intro e he
  rcases List.mem_append.mp he with h | h
  · exact hx e h
  · exact hy e h

theorem AllPositive.queueTotal_nonneg {queue : List (A × K)} (h : AllPositive queue) :
    0 ≤ queueTotal queue := by
  apply List.sum_nonneg
  intro x hx
  obtain ⟨e, he, rfl⟩ := List.mem_map.mp hx
  exact (h e he).le

omit [IsOrderedAddMonoid K] in
/-- Taking nothing changes nothing. -/
theorem deplete_zero {queue : List (A × K)} (h : AllPositive queue) : deplete 0 queue = queue := by
  cases queue with
  | nil => rfl
  | cons e rest =>
    obtain ⟨a, x⟩ := e
    have hx : 0 < x := (allPositive_cons.mp h).1
    simp [deplete, not_le.mpr hx]

theorem AllPositive.deplete {queue : List (A × K)} (h : AllPositive queue) (q : K) :
    AllPositive (deplete q queue) := by
  induction queue generalizing q with
  | nil => exact h
  | cons e rest ih =>
    obtain ⟨a, x⟩ := e
    obtain ⟨-, hrest⟩ := allPositive_cons.mp h
    unfold Lib.deplete
    split
    · exact ih hrest (q - x)
    · rename_i hle
      exact allPositive_cons.mpr ⟨sub_pos.mpr (not_le.mp hle), hrest⟩

/-- Two demands in a row are one demand. -/
theorem deplete_deplete {p q : K} (hp : 0 ≤ p) (hq : 0 ≤ q) (queue : List (A × K)) :
    deplete q (deplete p queue) = deplete (p + q) queue := by
  induction queue generalizing p with
  | nil => rfl
  | cons e rest ih =>
    obtain ⟨a, x⟩ := e
    by_cases hle : x ≤ p
    · -- the first demand empties the entry, so does the sum
      have hsum : x ≤ p + q := hle.trans (le_add_of_nonneg_right hq)
      simp only [deplete, if_pos hle, if_pos hsum]
      rw [ih (sub_nonneg.mpr hle), sub_add_eq_add_sub]
    · simp only [deplete, if_neg hle, sub_le_iff_le_add']
      split
      · rw [sub_sub_eq_add_sub, add_comm q p]
      · rw [sub_sub]

/-- A queue that covers the demand shields what is appended to it. -/
theorem deplete_append {xs ys : List (A × K)} (hys : AllPositive ys) {q : K} (hq : 0 ≤ q)
    (hle : q ≤ queueTotal xs) : deplete q (xs ++ ys) = deplete q xs ++ ys := by
  induction xs generalizing q with
  | nil =>
    obtain rfl : q = 0 := le_antisymm hle hq
    exact deplete_zero hys
  | cons e rest ih =>
    obtain ⟨a, x⟩ := e
    rw [List.cons_append]
    simp only [deplete]
    split
    · rename_i hx
      rw [queueTotal_cons] at hle
      exact ih (sub_nonneg.mpr hx) (sub_le_iff_le_add'.mpr hle)
    · rfl

/-- A covered demand leaves the difference. -/
theorem queueTotal_deplete {queue : List (A × K)} {q : K} (hq : 0 ≤ q)
    (hle : q ≤ queueTotal queue) : queueTotal (deplete q queue) = queueTotal queue - q := by
  induction queue generalizing q with
  | nil =>
    obtain rfl : q = 0 := le_antisymm hle hq
    simp [deplete]
  | cons e rest ih =>
    obtain ⟨a, x⟩ := e
    simp only [deplete]
    split
    · rename_i hx
      rw [queueTotal_cons] at hle ⊢
      rw [ih (sub_nonneg.mpr hx) (sub_le_iff_le_add'.mpr hle)]
      simp only [sub_sub_eq_add_sub, add_comm]
    · simp only [queueTotal_cons]
      exact sub_add_eq_add_sub x q (queueTotal rest)

/-- Demands one after the other are their sum. -/
theorem foldl_deplete {demands : List K} (hpos : ∀ q ∈ demands, 0 ≤ q) {queue : List (A × K)}
    (hqueue : AllPositive queue) :
    demands.foldl (fun rest q => deplete q rest) queue = deplete demands.sum queue := by
  induction demands generalizing queue with
  | nil => exact (deplete_zero hqueue).symm
  | cons q rest ih =>
    obtain ⟨hq, hrest⟩ := List.forall_mem_cons.mp hpos
    rw [List.foldl_cons, ih hrest (hqueue.deplete q), deplete_deplete hq (List.sum_nonneg hrest),
      List.sum_cons]

end CryptoTrading.Lib
