import Mathlib.Order.Bounds.Basic
import Mathlib.Order.MinMax

/-!
# Scoring the values of a series against its running peak

A series is scored value by value: each value against the highest one up to it (`peakTo`).  A
loop that carries the peak and the best score so far (`track`) ends with the highest value and
the greatest of the scores (`isGreatest_foldl_track`).
-/

namespace CryptoTrading.Lib

variable {A B : Type} [LinearOrder A] [LinearOrder B]

/-! ## §1 The highest value -/

/-- The highest of the start and the values. -/
def highest (start : A) (xs : List A) : A := xs.foldl max start

/-- The highest of the start and the values up to index `t`. -/
def peakTo (start : A) (xs : List A) (t : ℕ) : A := highest start (xs.take (t + 1))

@[simp] theorem highest_nil (start : A) : highest start [] = start := rfl

@[simp] theorem highest_cons (start x : A) (xs : List A) :
    highest start (x :: xs) = highest (max start x) xs := rfl

theorem start_le_highest (start : A) (xs : List A) : start ≤ highest start xs := by
  induction xs generalizing start with
  | nil => exact le_rfl
  | cons x xs ih => exact (le_max_left start x).trans (ih (max start x))

theorem le_highest (start : A) {xs : List A} {x : A} (hx : x ∈ xs) : x ≤ highest start xs := by
  induction xs generalizing start with
  | nil => cases hx
  | cons y xs ih =>
    rcases List.mem_cons.mp hx with rfl | hx
    · exact (le_max_right start x).trans (start_le_highest _ xs)
    · exact ih (max start y) hx

/-- The highest value is the start or one of the values. -/
theorem highest_mem (start : A) (xs : List A) :
    highest start xs = start ∨ highest start xs ∈ xs := by
  induction xs generalizing start with
  | nil => exact .inl rfl
  | cons x xs ih =>
    rcases ih (max start x) with h | h
    · rcases max_choice start x with hmax | hmax
      · exact .inl (h.trans hmax)
      · exact .inr (by rw [highest_cons, h, hmax]; exact List.mem_cons_self)
    · exact .inr (List.mem_cons_of_mem x h)

theorem highest_append (start : A) (xs ys : List A) :
    highest start (xs ++ ys) = highest (highest start xs) ys := List.foldl_append

/-- Peaks only rise. -/
theorem peakTo_le_highest (start : A) (xs : List A) (t : ℕ) :
    peakTo start xs t ≤ highest start xs := by
  calc peakTo start xs t ≤ highest (peakTo start xs t) (xs.drop (t + 1)) := start_le_highest _ _
    _ = highest start xs := by rw [peakTo, ← highest_append, List.take_append_drop]

/-- A value is at most the peak it is scored against. -/
theorem getElem_le_peakTo (start : A) {xs : List A} {t : ℕ} (ht : t < xs.length) :
    xs[t] ≤ peakTo start xs t :=
  le_highest start (List.mem_take_iff_getElem.mpr ⟨t, by omega, rfl⟩)

/-- The last peak is the highest value. -/
theorem peakTo_last (start : A) {xs : List A} (hne : xs ≠ []) :
    peakTo start xs (xs.length - 1) = highest start xs := by
  have hpos : 0 < xs.length := List.length_pos_iff.mpr hne
  rw [peakTo, List.take_of_length_le (by omega)]

/-! ## §2 Scores -/

variable (score : A → A → B)

/-- The scores of the values, each against the peak up to it. -/
def scores (start : A) (xs : List A) : Set B :=
  {b | ∃ (t : ℕ) (ht : t < xs.length), b = score (peakTo start xs t) xs[t]}

/-- One pass of a loop that carries the peak and the best score so far. -/
def track (acc : A × B) (x : A) : A × B :=
  let peak := max acc.1 x
  (peak, max acc.2 (score peak x))

variable {score}

omit [LinearOrder B] in
@[simp] theorem scores_nil (start : A) : scores score start [] = ∅ := by
  ext b
  simp [scores]

omit [LinearOrder B] in
theorem scores_cons (start x : A) (xs : List A) :
    scores score start (x :: xs) =
      insert (score (max start x) x) (scores score (max start x) xs) := by
  ext b
  rw [Set.mem_insert_iff]
  constructor
  · rintro ⟨t, ht, rfl⟩
    cases t with
    | zero => exact .inl rfl
    | succ t => exact .inr ⟨t, Nat.lt_of_succ_lt_succ ht, rfl⟩
  · rintro (rfl | ⟨t, ht, rfl⟩)
    · exact ⟨0, Nat.zero_lt_succ _, rfl⟩
    · exact ⟨t + 1, Nat.succ_lt_succ ht, rfl⟩

/-- The peak of the loop is the highest value. -/
theorem foldl_track_peak (xs : List A) (acc : A × B) :
    (xs.foldl (track score) acc).1 = highest acc.1 xs := by
  induction xs generalizing acc with
  | nil => rfl
  | cons x xs ih => exact ih (track score acc x)

/-- Its best score is the greatest of the one it began with and those of the values. -/
theorem isGreatest_foldl_track (xs : List A) (acc : A × B) :
    IsGreatest (insert acc.2 (scores score acc.1 xs)) (xs.foldl (track score) acc).2 := by
  induction xs generalizing acc with
  | nil => simp
  | cons x xs ih =>
    rw [scores_cons, List.foldl_cons]
    obtain ⟨hmem, hle⟩ := ih (track score acc x)
    have hbegin : (track score acc x).2 = max acc.2 (score (max acc.1 x) x) := rfl
    constructor
    · rcases hmem with h | h
      · rcases max_choice acc.2 (score (max acc.1 x) x) with hmax | hmax
        · exact .inl (h.trans (hbegin.trans hmax))
        · exact .inr (.inl (h.trans (hbegin.trans hmax)))
      · exact .inr (.inr h)
    · have hfirst : max acc.2 (score (max acc.1 x) x) ≤ _ := hle (Set.mem_insert _ _)
      rintro b (rfl | rfl | hb)
      · exact (le_max_left _ _).trans hfirst
      · exact (le_max_right _ _).trans hfirst
      · exact hle (Set.mem_insert_of_mem _ hb)

/-- A loop that begins with one of the scores ends with the greatest of them. -/
theorem isGreatest_scores {xs : List A} {acc : A × B} (h : acc.2 ∈ scores score acc.1 xs) :
    IsGreatest (scores score acc.1 xs) (xs.foldl (track score) acc).2 := by
  have hgreatest : IsGreatest (insert acc.2 (scores score acc.1 xs))
      (xs.foldl (track score) acc).2 := isGreatest_foldl_track xs acc
  rwa [Set.insert_eq_of_mem h] at hgreatest

end CryptoTrading.Lib
