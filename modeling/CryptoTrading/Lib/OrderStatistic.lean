import Mathlib.Data.List.Sort

/-!
# The element of a rank

`nthSmallest xs k` is the element at position `k` of a list once it is sorted.  It is found by
counting: `x` has rank `k` exactly when at most `k` elements are below it and more than `k` are not
above it (`nthSmallest_eq_some_iff`), so that the rank of an element is known in a list that was
changed by a function as long as comparisons with that element are (`nthSmallest_map`).
-/

namespace CryptoTrading.Lib

variable {α β : Type} [LinearOrder α] [LinearOrder β]

/-- The element of rank `k`, from zero; there is none beyond the length. -/
def nthSmallest (xs : List α) (k : ℕ) : Option α := (xs.insertionSort (· ≤ ·))[k]?

theorem countP_sort (p : α → Bool) (xs : List α) :
    (xs.insertionSort (· ≤ ·)).countP p = xs.countP p :=
  (List.perm_insertionSort _ xs).countP_eq p

theorem exists_nthSmallest {xs : List α} {k : ℕ} (h : k < xs.length) :
    ∃ x, nthSmallest xs k = some x :=
  ⟨_, List.getElem?_eq_getElem (by rwa [List.length_insertionSort])⟩

theorem lt_length_of_nthSmallest {xs : List α} {k : ℕ} {x : α} (h : nthSmallest xs k = some x) :
    k < xs.length := by
  have hlt := (List.getElem?_eq_some_iff.mp h).1
  rwa [List.length_insertionSort] at hlt

theorem mem_of_nthSmallest {xs : List α} {k : ℕ} {x : α} (h : nthSmallest xs k = some x) :
    x ∈ xs :=
  (List.mem_insertionSort _).mp (List.mem_of_getElem? h)

/-- What is below the element of rank `k` stands before it in the sorted list. -/
theorem countP_lt_le {xs : List α} {k : ℕ} {x : α} (h : nthSmallest xs k = some x) :
    xs.countP (· < x) ≤ k := by
  obtain ⟨hk, hx⟩ := List.getElem?_eq_some_iff.mp h
  have hsorted := List.sortedLE_insertionSort (l := xs)
  rw [← countP_sort]
  generalize xs.insertionSort (· ≤ ·) = sorted at hk hx hsorted
  have hdrop : (sorted.drop k).countP (· < x) = 0 := by
    refine List.countP_eq_zero.mpr fun y hy => ?_
    obtain ⟨i, hi, rfl⟩ := List.mem_iff_getElem.mp hy
    have hki : k + i < sorted.length := by
      rw [List.length_drop] at hi
      omega
    have hle : sorted[k] ≤ sorted[k + i] := hsorted.getElem_le_getElem_of_le (Nat.le_add_right k i)
    rw [hx] at hle
    simpa using hle
  have htake : (sorted.take k).countP (· < x) ≤ k :=
    List.countP_le_length.trans (List.length_take_le k sorted)
  rw [← List.take_append_drop k sorted, List.countP_append, hdrop]
  exact htake

/-- The element of rank `k` and those before it are not above it. -/
theorem lt_countP_le {xs : List α} {k : ℕ} {x : α} (h : nthSmallest xs k = some x) :
    k < xs.countP (· ≤ x) := by
  obtain ⟨hk, hx⟩ := List.getElem?_eq_some_iff.mp h
  have hsorted := List.sortedLE_insertionSort (l := xs)
  rw [← countP_sort]
  generalize xs.insertionSort (· ≤ ·) = sorted at hk hx hsorted
  have htake : (sorted.take (k + 1)).countP (· ≤ x) = k + 1 := by
    have hall : ∀ y ∈ sorted.take (k + 1), decide (y ≤ x) = true := by
      intro y hy
      obtain ⟨i, hi, rfl⟩ := List.mem_iff_getElem.mp hy
      have hik : i ≤ k := by
        rw [List.length_take] at hi
        omega
      have hle : sorted[i] ≤ sorted[k] := hsorted.getElem_le_getElem_of_le hik
      rw [hx] at hle
      simpa using hle
    rw [List.countP_eq_length.mpr hall, List.length_take]
    omega
  have hle := (List.take_sublist (k + 1) sorted).countP_le (p := fun y => decide (y ≤ x))
  omega

/-- **The rank of an element is a matter of counting.** -/
theorem nthSmallest_eq_some_iff {xs : List α} {k : ℕ} {x : α} :
    nthSmallest xs k = some x ↔ xs.countP (· < x) ≤ k ∧ k < xs.countP (· ≤ x) := by
  constructor
  · intro h
    exact ⟨countP_lt_le h, lt_countP_le h⟩
  · rintro ⟨hlt, hle⟩
    obtain ⟨y, hy⟩ := exists_nthSmallest (hle.trans_le List.countP_le_length)
    -- neither of the two elements can be below the other
    rcases lt_trichotomy x y with hxy | rfl | hyx
    · have hmono : xs.countP (· ≤ x) ≤ xs.countP (· < y) :=
        List.countP_mono_left fun z _ hz => by
          simp only [decide_eq_true_eq] at hz ⊢
          exact hz.trans_lt hxy
      exact absurd (hle.trans_le (hmono.trans (countP_lt_le hy))) (Nat.lt_irrefl k)
    · exact hy
    · have hmono : xs.countP (· ≤ y) ≤ xs.countP (· < x) :=
        List.countP_mono_left fun z _ hz => by
          simp only [decide_eq_true_eq] at hz ⊢
          exact hz.trans_lt hyx
      exact absurd ((lt_countP_le hy).trans_le (hmono.trans hlt)) (Nat.lt_irrefl k)

/-- Elements of higher rank are no smaller. -/
theorem le_of_nthSmallest {xs : List α} {j k : ℕ} {x y : α} (hx : nthSmallest xs j = some x)
    (hy : nthSmallest xs k = some y) (h : j ≤ k) : x ≤ y := by
  by_contra hlt
  have hbelow : xs.countP (· ≤ y) ≤ xs.countP (· < x) :=
    List.countP_mono_left fun z _ hz => by
      simp only [decide_eq_true_eq] at hz ⊢
      exact hz.trans_lt (not_le.mp hlt)
  have hrank := (lt_countP_le hy).trans_le (hbelow.trans (countP_lt_le hx))
  exact absurd (hrank.trans_le h) (Nat.lt_irrefl k)

/-- **A function that keeps comparisons with one element keeps its rank.** -/
theorem nthSmallest_map {f : α → β} {xs : List α} {k : ℕ} {x : α}
    (hlt : ∀ y ∈ xs, f y < f x ↔ y < x) (hle : ∀ y ∈ xs, f y ≤ f x ↔ y ≤ x)
    (h : nthSmallest xs k = some x) : nthSmallest (xs.map f) k = some (f x) := by
  obtain ⟨hbelow, hupto⟩ := nthSmallest_eq_some_iff.mp h
  refine nthSmallest_eq_some_iff.mpr ⟨?_, ?_⟩
  · have hcount : (xs.map f).countP (· < f x) = xs.countP (· < x) := by
      rw [List.countP_map]
      exact List.countP_congr fun y hy => by simpa using hlt y hy
    rwa [hcount]
  · have hcount : (xs.map f).countP (· ≤ f x) = xs.countP (· ≤ x) := by
      rw [List.countP_map]
      exact List.countP_congr fun y hy => by simpa using hle y hy
    rwa [hcount]

/-- What only elements below the one of rank `k` are mapped below is a bound of that rank. -/
theorem le_nthSmallest_map {f : α → β} {xs : List α} {k : ℕ} {x : α} {z b : β}
    (hlow : ∀ y ∈ xs, f y < b → y < x) (h : nthSmallest xs k = some x)
    (hz : nthSmallest (xs.map f) k = some z) : b ≤ z := by
  by_contra hlt
  have hupto : (xs.map f).countP (· ≤ z) ≤ xs.countP (· < x) := by
    rw [List.countP_map]
    refine List.countP_mono_left fun y hy hyz => ?_
    simp only [Function.comp_apply, decide_eq_true_eq] at hyz ⊢
    exact hlow y hy (hyz.trans_lt (not_le.mp hlt))
  exact absurd ((lt_countP_le hz).trans_le (hupto.trans (countP_lt_le h))) (Nat.lt_irrefl k)

end CryptoTrading.Lib
