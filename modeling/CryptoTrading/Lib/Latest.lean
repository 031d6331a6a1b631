import CryptoTrading.Lib.Dict
import Mathlib.Data.List.Sort

/-!
# Rows in time order, the last one counts

A table read back in the order of a time column keeps rows of equal time as they were stored
(`sortBy`).  A loop over it that writes each row under its key leaves under a key the last row
with that key (`get?_foldl_set`), and the last of the ordered rows is the latest one, the one
stored last among the rows of the latest time (`getLast?_sortBy`).
-/

namespace CryptoTrading.Lib

variable {A : Type} (time : A → ℕ)

/-! ## §1 The latest row -/

/-- The later of two rows, the second when they are of equal time. -/
def later (a b : A) : A := if time a ≤ time b then b else a

/-- The row of the latest time that was stored last. -/
def latest : List A → Option A
  | [] => none
  | a :: rest => some (((latest rest).map (later time a)).getD a)

theorem later_cases (a b : A) :
    (later time a b = b ∧ time a ≤ time b) ∨ (later time a b = a ∧ time b < time a) := by
  unfold later
  by_cases hle : time a ≤ time b
  · exact .inl ⟨if_pos hle, hle⟩
  · exact .inr ⟨if_neg hle, Nat.lt_of_not_le hle⟩

theorem latest_eq_none {rows : List A} : latest time rows = none ↔ rows = [] := by
  cases rows <;> simp [latest]

/-- The latest row is stored, and no row is later. -/
theorem mem_and_le_of_latest {rows : List A} {a : A} (h : latest time rows = some a) :
    a ∈ rows ∧ ∀ b ∈ rows, time b ≤ time a := by
  induction rows generalizing a with
  | nil => cases h
  | cons b rest ih =>
    cases hrest : latest time rest with
    | none =>
      rw [latest, hrest] at h
      obtain rfl : b = a := Option.some.inj h
      simp [(latest_eq_none time).mp hrest]
    | some c =>
      obtain ⟨hmem, hle⟩ := ih hrest
      rw [latest, hrest] at h
      obtain rfl : later time b c = a := Option.some.inj h
      rcases later_cases time b c with ⟨heq, hbc⟩ | ⟨heq, hcb⟩
      · rw [heq]
        refine ⟨List.mem_cons_of_mem b hmem, fun d hd => ?_⟩
        rcases List.mem_cons.mp hd with rfl | hd
        · exact hbc
        · exact hle d hd
      · rw [heq]
        refine ⟨List.mem_cons_self, fun d hd => ?_⟩
        rcases List.mem_cons.mp hd with rfl | hd
        · exact Nat.le_refl _
        · exact (hle d hd).trans (Nat.le_of_lt hcb)

theorem later_assoc (a b c : A) :
    later time a (later time b c) = later time (later time a b) c := by
  unfold later
  by_cases hab : time a ≤ time b <;> by_cases hbc : time b ≤ time c <;>
    by_cases hac : time a ≤ time c <;> simp [hab, hbc, hac] <;> omega

/-- A row stored last is the latest unless one stored before is later. -/
theorem latest_concat (rows : List A) (a : A) :
    latest time (rows ++ [a]) = some (((latest time rows).map fun b => later time b a).getD a) := by
  induction rows with
  | nil => rfl
  | cons b rest ih =>
    rw [List.cons_append, latest, ih, latest]
    cases latest time rest with
    | none => rfl
    | some c => exact congrArg some (later_assoc time b c a)

/-- A row stored last is the latest of a selection if it is selected and none of the selected rows
    is later; otherwise the latest one stays. -/
theorem latest_filter_concat (p : A → Bool) (rows : List A) (a : A)
    [Decidable (p a = true ∧ ∀ b ∈ rows, p b = true → time b ≤ time a)] :
    latest time ((rows ++ [a]).filter p) =
      if p a = true ∧ ∀ b ∈ rows, p b = true → time b ≤ time a then some a
      else latest time (rows.filter p) := by
  rw [List.filter_append]
  by_cases hp : p a = true
  · rw [List.filter_cons_of_pos hp, List.filter_nil, latest_concat]
    cases hbefore : latest time (rows.filter p) with
    | none =>
      have hnone := List.filter_eq_nil_iff.mp ((latest_eq_none time).mp hbefore)
      rw [if_pos ⟨hp, fun b hb hpb => absurd hpb (hnone b hb)⟩]
      rfl
    | some c =>
      obtain ⟨hmem, hle⟩ := mem_and_le_of_latest time hbefore
      obtain ⟨hc, hpc⟩ := List.mem_filter.mp hmem
      by_cases hca : time c ≤ time a
      · rw [if_pos ⟨hp, fun b hb hpb => (hle b (List.mem_filter.mpr ⟨hb, hpb⟩)).trans hca⟩]
        simp [later, hca]
      · rw [if_neg fun h => hca (h.2 c hc hpc)]
        simp [later, hca]
  · rw [List.filter_cons_of_neg hp, List.filter_nil, List.append_nil, if_neg fun h => hp h.1]

/-! ## §2 Reading in time order -/

/-- A row put in front of the first that is not earlier. -/
def insertBy (a : A) (rows : List A) : List A :=
  rows.orderedInsert (fun a b => time a ≤ time b) a

/-- The rows in the order of their times. -/
def sortBy (rows : List A) : List A := rows.insertionSort fun a b => time a ≤ time b

@[simp] theorem insertBy_nil (a : A) : insertBy time a [] = [a] := rfl

theorem insertBy_cons (a b : A) (rest : List A) :
    insertBy time a (b :: rest) =
      if time a ≤ time b then a :: b :: rest else b :: insertBy time a rest := rfl

@[simp] theorem sortBy_nil : sortBy time [] = [] := rfl

theorem sortBy_cons (a : A) (rest : List A) :
    sortBy time (a :: rest) = insertBy time a (sortBy time rest) := rfl

theorem pairwise_sortBy (rows : List A) :
    (sortBy time rows).Pairwise fun a b => time a ≤ time b :=
  List.pairwise_insertionSort _ rows

theorem getLast?_insertBy (a : A) {rows : List A}
    (hsorted : rows.Pairwise fun a b => time a ≤ time b) :
    (insertBy time a rows).getLast? = some ((rows.getLast?.map (later time a)).getD a) := by
  induction rows with
  | nil => rfl
  | cons b rest ih =>
    obtain ⟨hb, hrest⟩ := List.pairwise_cons.mp hsorted
    rw [insertBy_cons]
    by_cases hle : time a ≤ time b
    · rw [if_pos hle, List.getLast?_cons_cons]
      cases hlast : (b :: rest).getLast? with
      | none => simp at hlast
      | some c =>
        -- the last row is not earlier than `b`, so not earlier than `a`
        have hac : time a ≤ time c := by
          rcases List.mem_cons.mp (List.mem_of_getLast? hlast) with rfl | hc
          · exact hle
          · exact hle.trans (hb c hc)
        simp [later, hac]
    · rw [if_neg hle, List.getLast?_cons, ih hrest, List.getLast?_cons]
      cases rest.getLast? with
      | none => simp [later, hle]
      | some c => rfl

/-- The last row in time order is the latest. -/
theorem getLast?_sortBy (rows : List A) : (sortBy time rows).getLast? = latest time rows := by
  induction rows with
  | nil => rfl
  | cons a rest ih =>
    rw [sortBy_cons, getLast?_insertBy time a (pairwise_sortBy time rest), ih, latest]

theorem filter_insertBy (p : A → Bool) (a : A) {rows : List A}
    (hsorted : rows.Pairwise fun a b => time a ≤ time b) :
    (insertBy time a rows).filter p =
      if p a then insertBy time a (rows.filter p) else rows.filter p := by
  induction rows with
  | nil => cases hp : p a <;> simp [hp]
  | cons b rest ih =>
    obtain ⟨hb, hrest⟩ := List.pairwise_cons.mp hsorted
    rw [insertBy_cons]
    by_cases hle : time a ≤ time b
    · rw [if_pos hle]
      cases hp : p a with
      | false => simp [hp]
      | true =>
        rw [List.filter_cons_of_pos hp, if_pos rfl]
        -- the rows that are kept are not earlier than `b`, so `a` stays in front of them
        cases hkept : (b :: rest).filter p with
        | nil => rfl
        | cons c kept =>
          have hc : c ∈ (b :: rest).filter p := hkept ▸ List.mem_cons_self
          have hac : time a ≤ time c := by
            rcases List.mem_cons.mp (List.mem_filter.mp hc).1 with rfl | hc
            · exact hle
            · exact hle.trans (hb c hc)
          rw [insertBy_cons, if_pos hac]
    · rw [if_neg hle]
      cases hpb : p b with
      | true =>
        rw [List.filter_cons_of_pos hpb, List.filter_cons_of_pos hpb, ih hrest]
        cases hp : p a with
        | true => rw [if_pos rfl, if_pos rfl, insertBy_cons, if_neg hle]
        | false => rfl
      | false =>
        have hneg : ¬ p b = true := by simp [hpb]
        rw [List.filter_cons_of_neg hneg, List.filter_cons_of_neg hneg, ih hrest]

/-- The rows that are selected keep their order. -/
theorem filter_sortBy (p : A → Bool) (rows : List A) :
    (sortBy time rows).filter p = sortBy time (rows.filter p) := by
  induction rows with
  | nil => rfl
  | cons a rest ih =>
    rw [sortBy_cons, filter_insertBy time p a (pairwise_sortBy time rest)]
    cases hp : p a with
    | true => rw [if_pos rfl, ih, List.filter_cons_of_pos hp, sortBy_cons]
    | false => rw [if_neg Bool.false_ne_true, ih, List.filter_cons_of_neg (by simp [hp])]

/-! ## §3 Writing each row under its key -/

/-- The last row of a key counts. -/
theorem get?_foldl_set {K V : Type} [DecidableEq K] (key : A → K) (value : A → V) (rows : List A)
    (d : Dict K V) (k : K) :
    (rows.foldl (fun d a => d.set (key a) (value a)) d).get? k =
      (((rows.filter fun a => key a = k).getLast?).map value).or (d.get? k) := by
  induction rows generalizing d with
  | nil => rfl
  | cons a rest ih =>
    rw [List.foldl_cons, ih, Dict.get?_set]
    by_cases hk : key a = k
    · rw [if_pos hk.symm, List.filter_cons_of_pos (by simpa using hk), List.getLast?_cons]
      cases (rest.filter fun a => key a = k).getLast? <;> rfl
    · rw [if_neg (Ne.symm hk), List.filter_cons_of_neg (by simpa using hk)]

/-- Read in time order, the latest row of a key counts. -/
theorem get?_foldl_set_sortBy {K V : Type} [DecidableEq K] (key : A → K) (value : A → V)
    (rows : List A) (k : K) :
    ((sortBy time rows).foldl (fun d a => d.set (key a) (value a)) Dict.empty).get? k =
      (latest time (rows.filter fun a => key a = k)).map value := by
  rw [get?_foldl_set, filter_sortBy, getLast?_sortBy, Dict.get?_empty, Option.or_none]

end CryptoTrading.Lib
