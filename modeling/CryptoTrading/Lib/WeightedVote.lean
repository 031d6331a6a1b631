import Mathlib.Algebra.Order.BigOperators.Group.List
import Mathlib.Algebra.Order.Field.Basic
import Mathlib.Tactic.Linarith
import Mathlib.Tactic.Positivity
import Mathlib.Tactic.Ring

/-!
# Weighted votes

Ballots with weights over an ordered field, and the rule by which they carry a motion: somebody
whose vote counts is in favour, and the weight in favour is at least the share
`factor / (1 + factor)` of the whole weight.

The rule does not see ballots without weight (`carried_filter`), it is not hurt by additional
approval (`Carried.mono`), and with equal weights it counts heads (`carried_iff_count`).
-/

namespace CryptoTrading.Lib

/-! ## §1 Ballots -/

/-- A vote and what it weighs. -/
structure Ballot (K : Type) where
  weight : K
  yes : Bool

section Weights

variable {K : Type} [Field K]

/-- The weight of all ballots. -/
def totalWeight (ballots : List (Ballot K)) : K := (ballots.map Ballot.weight).sum

/-- The weight in favour. -/
def yesWeight (ballots : List (Ballot K)) : K :=
  (ballots.map fun b => if b.yes then b.weight else 0).sum

/-- The weight against. -/
def noWeight (ballots : List (Ballot K)) : K :=
  (ballots.map fun b => if b.yes then 0 else b.weight).sum

theorem yesWeight_add_noWeight (ballots : List (Ballot K)) :
    yesWeight ballots + noWeight ballots = totalWeight ballots := by
  unfold yesWeight noWeight totalWeight
  rw [← List.sum_map_add]
  congr 1
  apply List.map_congr_left
  intro b _
  cases b.yes <;> simp

/-- The ballots of the voters. -/
def ballotsOf {V : Type} (weight : V → K) (vote : V → Bool) (voters : List V) : List (Ballot K) :=
  voters.map fun v => ⟨weight v, vote v⟩

theorem totalWeight_ballotsOf {V : Type} {weight : V → K} {vote : V → Bool} (voters : List V) :
    totalWeight (ballotsOf weight vote voters) = (voters.map weight).sum := by
  simp [totalWeight, ballotsOf, Function.comp_def]

theorem yesWeight_ballotsOf {V : Type} {weight : V → K} {vote : V → Bool} (voters : List V) :
    yesWeight (ballotsOf weight vote voters) =
      ((voters.filter vote).map weight).sum := by
  unfold yesWeight ballotsOf
  induction voters with
  | nil => rfl
  | cons v rest ih => cases hv : vote v <;> simp_all

end Weights

variable {K : Type} [Field K] [LinearOrder K] [IsStrictOrderedRing K] {factor : K}

/-- The motion is carried. -/
def Carried (factor : K) (ballots : List (Ballot K)) : Prop :=
  (∃ b ∈ ballots, 0 < b.weight ∧ b.yes = true) ∧
    factor / (1 + factor) * totalWeight ballots ≤ yesWeight ballots

/-- The share in favour is large enough when the margin is not negative. -/
theorem share_le_iff (hfactor : 0 < factor) (total yes : K) :
    factor / (1 + factor) * total ≤ yes ↔ 0 ≤ yes - factor * (total - yes) := by
  have hpos : (0 : K) < 1 + factor := by linarith
  have hmargin : yes * (1 + factor) - factor * total = yes - factor * (total - yes) := by ring
  rw [div_mul_eq_mul_div, div_le_iff₀ hpos, ← sub_nonneg, hmargin]

theorem share_le_iff_margin (hfactor : 0 < factor) (ballots : List (Ballot K)) :
    factor / (1 + factor) * totalWeight ballots ≤ yesWeight ballots ↔
      0 ≤ yesWeight ballots - factor * noWeight ballots := by
  rw [share_le_iff hfactor, ← yesWeight_add_noWeight, add_sub_cancel_left]

/-! ## §2 Weights are not negative -/

section NonNegative

variable {ballots : List (Ballot K)}

/-- Some weight is in favour when a ballot that counts is. -/
theorem yesWeight_pos_iff (h : ∀ b ∈ ballots, 0 ≤ b.weight) :
    0 < yesWeight ballots ↔ ∃ b ∈ ballots, 0 < b.weight ∧ b.yes = true := by
  unfold yesWeight
  induction ballots with
  | nil => simp
  | cons b rest ih =>
    obtain ⟨hb, hrest⟩ := List.forall_mem_cons.mp h
    have htail : 0 ≤ (rest.map fun b => if b.yes then b.weight else 0).sum := by
      apply List.sum_nonneg
      rw [List.forall_mem_map]
      intro b hb
      split
      · exact hrest b hb
      · exact le_refl 0
    rw [List.map_cons, List.sum_cons, List.exists_mem_cons_iff, ← ih hrest]
    cases hyes : b.yes with
    | false => simp
    | true =>
      simp only [if_true, and_true]
      constructor
      · intro hsum
        by_contra hnone
        rw [not_or, not_lt, not_lt] at hnone
        linarith [hnone.1, hnone.2]
      · rintro (hweight | hweight) <;> linarith

omit [IsStrictOrderedRing K] in
/-- Without weight a ballot adds nothing to a sum. -/
theorem sum_filter_pos {f : Ballot K → K} (hf : ∀ b, b.weight = 0 → f b = 0)
    (h : ∀ b ∈ ballots, 0 ≤ b.weight) :
    ((ballots.filter fun b => 0 < b.weight).map f).sum = (ballots.map f).sum := by
  induction ballots with
  | nil => rfl
  | cons b rest ih =>
    obtain ⟨hb, hrest⟩ := List.forall_mem_cons.mp h
    by_cases hweight : 0 < b.weight
    · simp [hweight, ih hrest]
    · have hzero : b.weight = 0 := le_antisymm (not_lt.mp hweight) hb
      simp [hweight, ih hrest, hf b hzero]

omit [IsStrictOrderedRing K] in
/-- **Ballots without weight have no influence.** -/
theorem carried_filter (h : ∀ b ∈ ballots, 0 ≤ b.weight) :
    Carried factor (ballots.filter fun b => 0 < b.weight) ↔ Carried factor ballots := by
  have htotal : totalWeight (ballots.filter fun b => 0 < b.weight) = totalWeight ballots :=
    sum_filter_pos (fun b hb => hb) h
  have hyes : yesWeight (ballots.filter fun b => 0 < b.weight) = yesWeight ballots := by
    apply sum_filter_pos _ h
    intro b hb
    simp [hb]
  unfold Carried
  rw [htotal, hyes]
  apply and_congr_left
  intro _
  constructor
  · rintro ⟨b, hb, hvote⟩
    exact ⟨b, List.mem_of_mem_filter hb, hvote⟩
  · rintro ⟨b, hb, hvote⟩
    exact ⟨b, List.mem_filter.mpr ⟨hb, by simp [hvote.1]⟩, hvote⟩

end NonNegative

/-! ## §3 Approval -/

section Approval

variable {V : Type} {weight : V → K} {vote vote' : V → Bool}

/-- **More approval never hurts.** -/
theorem Carried.mono {voters : List V} (hweight : ∀ v ∈ voters, 0 ≤ weight v)
    (hvote : ∀ v ∈ voters, vote v = true → vote' v = true)
    (h : Carried factor (ballotsOf weight vote voters)) :
    Carried factor (ballotsOf weight vote' voters) := by
  obtain ⟨⟨b, hb, hpos, hyes⟩, hshare⟩ := h
  obtain ⟨v, hv, rfl⟩ := List.mem_map.mp hb
  refine ⟨⟨⟨weight v, vote' v⟩, List.mem_map_of_mem hv, hpos, hvote v hv hyes⟩, ?_⟩
  rw [totalWeight_ballotsOf] at hshare ⊢
  apply le_trans hshare
  simp only [yesWeight, ballotsOf, List.map_map]
  apply List.sum_le_sum
  intro v hv
  simp only [Function.comp_apply]
  cases hyes : vote v with
  | true => simp [hvote v hv hyes]
  | false =>
    simp only [Bool.false_eq_true, if_false]
    split
    · exact hweight v hv
    · exact le_refl 0

/-- **With equal weights, heads are counted.** -/
theorem carried_iff_count {voters : List V} {w : K} (hfactor : 0 < factor) (hw : 0 < w)
    (hequal : ∀ v ∈ voters, weight v = w) (hvoters : voters ≠ []) :
    Carried factor (ballotsOf weight vote voters) ↔
      factor / (1 + factor) * voters.length ≤ voters.countP vote := by
  have htotal : totalWeight (ballotsOf weight vote voters) = voters.length * w := by
    rw [totalWeight_ballotsOf, List.map_congr_left hequal]
    simp
  have hyes : yesWeight (ballotsOf weight vote voters) = voters.countP vote * w := by
    rw [yesWeight_ballotsOf,
      List.map_congr_left fun v hv => hequal v (List.mem_of_mem_filter hv)]
    simp [List.countP_eq_length_filter]
  unfold Carried
  rw [htotal, hyes, ← mul_assoc, mul_le_mul_iff_left₀ hw]
  constructor
  · exact And.right
  · intro hshare
    refine ⟨?_, hshare⟩
    -- a positive share of somebody is more than nobody
    have hlength : (0 : K) < voters.length := by
      exact_mod_cast List.length_pos_iff.mpr hvoters
    have hcount : (0 : K) < voters.countP vote := by
      apply lt_of_lt_of_le _ hshare
      positivity
    have hsome : 0 < voters.countP vote := by exact_mod_cast hcount
    obtain ⟨v, hv, hyes⟩ := List.countP_pos_iff.mp hsome
    exact ⟨⟨weight v, vote v⟩, List.mem_map_of_mem hv, by rw [hequal v hv]; exact hw, hyes⟩

end Approval

end CryptoTrading.Lib
