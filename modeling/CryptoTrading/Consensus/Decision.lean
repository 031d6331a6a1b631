import CryptoTrading.Api.Interfaces
import CryptoTrading.Lib.Dict
import CryptoTrading.Lib.Rounding
import CryptoTrading.Lib.WeightedVote

/-!
# Decisions of the strategies

A `ConsensusDecision` holds the votes and the weights of the strategies by name, and decides by
two formulas: by weight, and by heads when nobody has any weight.  `OfVoters` says what the
dictionaries hold when the names tell the voters apart.  For such a decision, and when nobody
without weight is in favour, the two formulas are one rule of weighted votes
(`OfVoters.quorum_iff`).

Weights and factors are the numbers that their floats stand for, and the formulas are exact.  The
code computes them in floats, where each sum, product and difference is rounded: `floatQuorum` is
the quorum under such a rounding, and `quorum` is the one without (`floatQuorum_id`).
-/

namespace CryptoTrading.Consensus

open CryptoTrading.Lib

/-! ## §1 The decision -/

structure ConsensusDecision where
  tradeAction : TradeAction
  tickerSymbol : String
  votes : Dict String Bool
  weights : Dict String ℚ
  factor : ℚ
  deriving DecidableEq

namespace ConsensusDecision

variable (d : ConsensusDecision)

/-- `true_count`. -/
def trueCount : ℕ := d.votes.values.countP id

/-- `total`. -/
def total : ℕ := d.votes.values.length

/-- `weighted_true_count`. -/
def weightedTrueCount : ℚ :=
  d.weights.sumBy fun name weight => if d.votes.get? name = some true then weight else 0

/-- `weighted_false_count`. -/
def weightedFalseCount : ℚ :=
  d.weights.sumBy fun name weight => if d.votes.get? name = some false then weight else 0

/-- `total_weight`. -/
def totalWeight : ℚ := d.weights.values.sum

/-- `quorum_margin`. -/
def quorumMargin : ℚ :=
  if 0 < d.totalWeight then d.weightedTrueCount - d.factor * d.weightedFalseCount
  else d.trueCount - d.factor * (d.total - d.trueCount)

/-- `quorum`. -/
def quorum : Bool :=
  if 0 < d.totalWeight then 0 < d.weightedTrueCount ∧ 0 ≤ d.quorumMargin
  else 0 < d.total ∧ 0 ≤ d.quorumMargin

/-! ## §2 The decision in floats -/

/-- The weights of the strategies that voted so. -/
def weightsOf (vote : Bool) : List ℚ :=
  (d.weights.entries.filter fun e => d.votes.get? e.1 = some vote).map Prod.snd

/-- `quorum_margin`, when `fl` rounds the result of each operation. -/
def floatMargin (fl : ℚ → ℚ) : ℚ :=
  if 0 < sumCompensated fl d.weights.values then
    fl (sumCompensated fl (d.weightsOf true) -
      fl (d.factor * sumCompensated fl (d.weightsOf false)))
  else fl (d.trueCount - fl (d.factor * (d.total - d.trueCount)))

/-- `quorum`, when `fl` rounds the result of each operation. -/
def floatQuorum (fl : ℚ → ℚ) : Bool :=
  if 0 < sumCompensated fl d.weights.values then
    0 < sumCompensated fl (d.weightsOf true) ∧ 0 ≤ d.floatMargin fl
  else 0 < d.total ∧ 0 ≤ d.floatMargin fl

theorem sum_weightsOf (vote : Bool) :
    (d.weightsOf vote).sum =
      d.weights.sumBy fun name weight => if d.votes.get? name = some vote then weight else 0 := by
  unfold weightsOf Dict.sumBy
  induction d.weights.entries with
  | nil => rfl
  | cons e rest ih =>
    rw [List.map_cons, List.sum_cons, ← ih]
    by_cases hvote : d.votes.get? e.1 = some vote <;> simp [hvote]

/-- **Without rounding the two are the same.** -/
theorem floatQuorum_id : d.floatQuorum id = d.quorum := by
  simp only [floatQuorum, floatMargin, sumCompensated_id, sum_weightsOf, id_eq]
  rfl

end ConsensusDecision

/-! ## §3 A decision of voters -/

section Voters

variable {V : Type} {name : V → String} {weight : V → ℚ} {vote : V → Bool} {voters : List V}

/-- The decision holds one vote and one weight for each of the voters. -/
structure OfVoters (name : V → String) (weight : V → ℚ) (vote : V → Bool) (voters : List V)
    (d : ConsensusDecision) : Prop where
  votes : d.votes.entries = voters.map fun v => (name v, vote v)
  weights : d.weights.entries = voters.map fun v => (name v, weight v)

namespace OfVoters

variable {d : ConsensusDecision} (h : OfVoters name weight vote voters d)

include h

theorem get?_votes {v : V} (hv : v ∈ voters) : d.votes.get? (name v) = some (vote v) := by
  rw [Dict.get?_eq_some_iff, h.votes]
  exact List.mem_map_of_mem hv

theorem total_eq : d.total = voters.length := by
  simp [ConsensusDecision.total, Dict.values, h.votes]

theorem trueCount_eq : d.trueCount = voters.countP vote := by
  simp [ConsensusDecision.trueCount, Dict.values, h.votes, List.countP_map, Function.comp_def]

theorem totalWeight_eq : d.totalWeight = totalWeight (ballotsOf weight vote voters) := by
  simp [ConsensusDecision.totalWeight, Dict.values, h.weights, totalWeight_ballotsOf,
    Function.comp_def]

theorem weightedTrueCount_eq :
    d.weightedTrueCount = yesWeight (ballotsOf weight vote voters) := by
  unfold ConsensusDecision.weightedTrueCount Dict.sumBy yesWeight ballotsOf
  rw [h.weights, List.map_map, List.map_map]
  congr 1
  apply List.map_congr_left
  intro v hv
  simp [h.get?_votes hv]

theorem weightedFalseCount_eq :
    d.weightedFalseCount = noWeight (ballotsOf weight vote voters) := by
  unfold ConsensusDecision.weightedFalseCount Dict.sumBy noWeight ballotsOf
  rw [h.weights, List.map_map, List.map_map]
  congr 1
  apply List.map_congr_left
  intro v hv
  simp only [Function.comp_apply, h.get?_votes hv, Option.some.injEq]
  cases vote v <;> simp

/-- **The two branches of the formula are one rule.** -/
theorem quorum_iff (hfactor : 0 < d.factor) (hweight : ∀ v ∈ voters, 0 ≤ weight v)
    (hsilent : ∀ v ∈ voters, weight v = 0 → vote v = false) :
    d.quorum = true ↔ Carried d.factor (ballotsOf weight vote voters) := by
  have hnonneg : ∀ b ∈ ballotsOf weight vote voters, 0 ≤ b.weight :=
    List.forall_mem_map.mpr hweight
  unfold ConsensusDecision.quorum ConsensusDecision.quorumMargin Carried
  rw [h.totalWeight_eq, share_le_iff_margin hfactor, ← yesWeight_pos_iff hnonneg,
    ← h.weightedTrueCount_eq, ← h.weightedFalseCount_eq]
  by_cases htotal : 0 < totalWeight (ballotsOf weight vote voters)
  · simp [htotal]
  · -- nobody has any weight, so that nobody is in favour
    have hzero : ∀ v ∈ voters, weight v = 0 := by
      rw [totalWeight_ballotsOf] at htotal
      intro v hv
      have hle := List.single_le_sum (List.forall_mem_map.mpr hweight) (weight v)
        (List.mem_map_of_mem hv)
      exact le_antisymm (hle.trans (not_lt.mp htotal)) (hweight v hv)
    have hnone : d.trueCount = 0 := by
      rw [h.trueCount_eq, List.countP_eq_zero]
      intro v hv
      simp [hsilent v hv (hzero v hv)]
    have hyes : d.weightedTrueCount = 0 := by
      rw [h.weightedTrueCount_eq, yesWeight_ballotsOf]
      apply List.sum_eq_zero
      rw [List.forall_mem_map]
      exact fun v hv => hzero v (List.mem_of_mem_filter hv)
    simp only [htotal, if_false, hnone, hyes, lt_irrefl, false_and, decide_eq_true_eq,
      iff_false, not_and, not_le, Nat.cast_zero, sub_zero, zero_sub]
    intro hpos
    have hpos' : (0 : ℚ) < d.total := by exact_mod_cast hpos
    exact neg_neg_of_pos (mul_pos hfactor hpos')

end OfVoters

end Voters

end CryptoTrading.Consensus
