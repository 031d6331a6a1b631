import Mathlib.Data.List.Sort
import Mathlib.Data.List.TakeWhile

/-!
# The end of a sorted list that grows

A bounded list in the order of a key takes new entries at any place, and loses its first ones when
it has become too long.  The order of entries with the same key is that of their arrival.

What was lost does not count: sorting what is left together with the new entries and keeping the
end again gives the end of everything that ever came, sorted once (`keepLast_sortOn_append`).
-/

namespace CryptoTrading.Lib

variable {A K : Type} [LinearOrder K] (key : A → K)

/-! ## §1 A stable sort -/

/-- Put an entry before the first one with the same or a larger key. -/
def insertOn (a : A) (l : List A) : List A := l.orderedInsert (fun a b => key a ≤ key b) a

/-- The entries by increasing key, those of one key in their order. -/
def sortOn (l : List A) : List A := l.insertionSort fun a b => key a ≤ key b

@[simp] theorem insertOn_nil (a : A) : insertOn key a [] = [a] := rfl

theorem insertOn_of_le {a b : A} (l : List A) (h : key a ≤ key b) :
    insertOn key a (b :: l) = a :: b :: l := if_pos h

theorem insertOn_of_lt {a b : A} (l : List A) (h : key b < key a) :
    insertOn key a (b :: l) = b :: insertOn key a l := if_neg (not_le_of_gt h)

@[simp] theorem sortOn_nil : sortOn key ([] : List A) = [] := rfl

@[simp] theorem sortOn_cons (a : A) (l : List A) :
    sortOn key (a :: l) = insertOn key a (sortOn key l) := rfl

theorem pairwise_sortOn (l : List A) : (sortOn key l).Pairwise fun a b => key a ≤ key b :=
  List.pairwise_insertionSort _ l

theorem perm_sortOn (l : List A) : (sortOn key l).Perm l := List.perm_insertionSort _ l

theorem sortOn_append (l ys : List A) :
    sortOn key (l ++ ys) = l.foldr (insertOn key) (sortOn key ys) := by
  induction l with
  | nil => rfl
  | cons a l ih => rw [List.cons_append, sortOn_cons, ih, List.foldr_cons]

/-- Entries of different keys may be put in one after the other in either order. -/
theorem insertOn_comm {a b : A} (h : key b < key a) (l : List A) :
    insertOn key b (insertOn key a l) = insertOn key a (insertOn key b l) := by
  induction l with
  | nil =>
    rw [insertOn_nil, insertOn_nil, insertOn_of_le key [] h.le, insertOn_of_lt key [] h,
      insertOn_nil]
  | cons c l ih =>
    by_cases hac : key a ≤ key c
    · rw [insertOn_of_le key l hac, insertOn_of_le key l (h.le.trans hac),
        insertOn_of_le key _ h.le, insertOn_of_lt key _ h, insertOn_of_le key l hac]
    · have hca : key c < key a := lt_of_not_ge hac
      rw [insertOn_of_lt key l hca]
      by_cases hbc : key b ≤ key c
      · rw [insertOn_of_le key _ hbc, insertOn_of_le key _ hbc, insertOn_of_lt key _ h,
          insertOn_of_lt key _ hca]
      · have hcb : key c < key b := lt_of_not_ge hbc
        rw [insertOn_of_lt key _ hcb, insertOn_of_lt key _ hcb, insertOn_of_lt key _ hca, ih]

/-- Putting in a list with one more entry puts in the list and then the entry. -/
theorem foldr_insertOn (a : A) (l acc : List A) :
    (insertOn key a l).foldr (insertOn key) acc =
      insertOn key a (l.foldr (insertOn key) acc) := by
  induction l with
  | nil => rfl
  | cons b l ih =>
    by_cases hab : key a ≤ key b
    · rw [insertOn_of_le key l hab, List.foldr_cons]
    · have hba : key b < key a := lt_of_not_ge hab
      rw [insertOn_of_lt key l hba, List.foldr_cons, List.foldr_cons, ih, insertOn_comm key hba]

/-- What is sorted already may be sorted again with what comes later. -/
theorem sortOn_sortOn_append (xs ys : List A) :
    sortOn key (sortOn key xs ++ ys) = sortOn key (xs ++ ys) := by
  rw [sortOn_append, sortOn_append]
  induction xs with
  | nil => rfl
  | cons a xs ih => rw [sortOn_cons, foldr_insertOn, ih, List.foldr_cons]

/-! ## §2 The end of the list -/

/-- The last `n` entries, all of them if there are not more. -/
def keepLast (n : ℕ) (l : List A) : List A := l.drop (l.length - n)

theorem keepLast_of_length_le {n : ℕ} {l : List A} (h : l.length ≤ n) : keepLast n l = l := by
  rw [keepLast, Nat.sub_eq_zero_of_le h, List.drop_zero]

theorem length_keepLast (n : ℕ) (l : List A) : (keepLast n l).length = min n l.length := by
  rw [keepLast, List.length_drop]
  omega

/-- What stands before `n` entries does not count. -/
theorem keepLast_append {n : ℕ} (l : List A) {r : List A} (h : n ≤ r.length) :
    keepLast n (l ++ r) = keepLast n r := by
  have hlen : (l ++ r).length - n = l.length + (r.length - n) := by
    rw [List.length_append]
    omega
  rw [keepLast, hlen, List.drop_length_add_append, keepLast]

/-- An entry that `n` others follow or equal does not show. -/
theorem keepLast_insertOn {n : ℕ} {a : A} {l : List A}
    (h : n ≤ l.countP fun b => decide (key a ≤ key b)) :
    keepLast n (insertOn key a l) = keepLast n l := by
  have hsplit : insertOn key a l = l.takeWhile (fun b => decide (¬ key a ≤ key b)) ++
      a :: l.dropWhile (fun b => decide (¬ key a ≤ key b)) :=
    List.orderedInsert_eq_take_drop _ a l
  have hwhole := List.takeWhile_append_dropWhile (p := fun b => decide (¬ key a ≤ key b)) (l := l)
  set before := l.takeWhile fun b => decide (¬ key a ≤ key b)
  set after := l.dropWhile fun b => decide (¬ key a ≤ key b)
  have hbefore : before.countP (fun b => decide (key a ≤ key b)) = 0 := by
    refine List.countP_eq_zero.mpr fun b hb => ?_
    simpa using List.mem_takeWhile_imp hb
  have hafter : n ≤ after.length := by
    rw [← hwhole, List.countP_append, hbefore, Nat.zero_add] at h
    exact h.trans List.countP_le_length
  calc keepLast n (insertOn key a l) = keepLast n ((before ++ [a]) ++ after) := by
        rw [hsplit, List.append_assoc, List.singleton_append]
    _ = keepLast n after := keepLast_append _ hafter
    _ = keepLast n (before ++ after) := (keepLast_append _ hafter).symm
    _ = keepLast n l := by rw [hwhole]

/-- Entries below `n` others do not show in the sorted list. -/
theorem keepLast_sortOn_of_below {n : ℕ} {low high : List A} (hlen : n ≤ high.length)
    (h : ∀ a ∈ low, ∀ b ∈ high, key a ≤ key b) (ys : List A) :
    keepLast n (sortOn key (low ++ (high ++ ys))) = keepLast n (sortOn key (high ++ ys)) := by
  induction low with
  | nil => rfl
  | cons a low ih =>
    rw [List.cons_append, sortOn_cons, keepLast_insertOn,
      ih fun b hb => h b (List.mem_cons_of_mem a hb)]
    -- all of `high` is above the entry
    have hhigh : high.countP (fun b => decide (key a ≤ key b)) = high.length :=
      List.countP_eq_length.mpr fun b hb => by simpa using h a List.mem_cons_self b hb
    rw [(perm_sortOn key _).countP_eq, List.countP_append, List.countP_append, hhigh]
    omega

/-- **What was cut off does not count for what is cut off later.** -/
theorem keepLast_sortOn_append (n : ℕ) (xs ys : List A) :
    keepLast n (sortOn key (keepLast n (sortOn key xs) ++ ys)) =
      keepLast n (sortOn key (xs ++ ys)) := by
  rcases Nat.lt_or_ge n (sortOn key xs).length with hlong | hshort
  · set cut := (sortOn key xs).take ((sortOn key xs).length - n)
    have hwhole : cut ++ keepLast n (sortOn key xs) = sortOn key xs := List.take_append_drop _ _
    have hlen : n ≤ (keepLast n (sortOn key xs)).length := by
      rw [length_keepLast]
      omega
    have hsorted := pairwise_sortOn key xs
    rw [← hwhole, List.pairwise_append] at hsorted
    rw [← keepLast_sortOn_of_below key hlen hsorted.2.2 ys, ← List.append_assoc, hwhole,
      sortOn_sortOn_append]
  · rw [keepLast_of_length_le hshort, sortOn_sortOn_append]

end CryptoTrading.Lib
