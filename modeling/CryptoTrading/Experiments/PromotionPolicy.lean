import Mathlib.Algebra.Order.Field.Rat
import CryptoTrading.Experiments.Candidates

/-!
# The gates of a promotion

Embeds `src/server/services/promotion_policy.py` and the metrics of
`simulation_report_service.py`.

Three gates stand between an experiment and the main branch: gate A before a candidate is
simulated, gate B on the report of the simulation, and gate C on the merge.  Rounding is a
parameter.  Left out: the texts of the checks, and the metrics that no gate reads.
-/

namespace CryptoTrading.Experiments

open CryptoTrading.Lib

/-! ## §1 Checks and decisions -/

inductive GateDecision where
  | pass
  | fail
  | inconclusive
  deriving DecidableEq

structure GateCheckItem where
  name : String
  passed : Bool
  deriving DecidableEq

structure GateEvaluationResult where
  decision : GateDecision
  checks : List GateCheckItem
  deriving DecidableEq

structure PromotionPolicy where
  minTrades : ℕ
  maxDrawdownPct : ℚ
  requirePriorBacktest : Bool

/-- The policy with its default limits. -/
def PromotionPolicy.default : PromotionPolicy := ⟨5, 15, true⟩

/-- The decision of a gate that needs all its checks. -/
def allPassed (checks : List GateCheckItem) : GateEvaluationResult :=
  ⟨if checks.all (·.passed) then .pass else .fail, checks⟩

theorem allPassed_eq_pass_iff (checks : List GateCheckItem) :
    (allPassed checks).decision = .pass ↔ ∀ check ∈ checks, check.passed = true := by
  unfold allPassed
  split
  · simp_all
  · simp_all

/-! ## §2 Gate A -/

/-- The commit of a candidate, `candidate_commit_hash or base_commit_hash`; `none` when both are
    missing. -/
def sourceCommit (exp : Experiment) (cand : ExperimentCandidate) : Option String :=
  let hash := (cand.candidateCommitHash.filter (· ≠ "")).getD exp.baseCommitHash
  if hash = "" then none else some hash

namespace PromotionPolicy

/-- `evaluate_gate_a`. -/
def evaluateGateA (policy : PromotionPolicy) (cand : ExperimentCandidate) (exp : Experiment) :
    GateEvaluationResult :=
  allPassed
    [⟨"configuration_valid", !cand.strategyWeights.entries.isEmpty⟩,
      ⟨"source_commit_traceable", (sourceCommit exp cand).any fun c => 6 ≤ c.length⟩,
      ⟨"prior_backtest_exists", !exp.runBindings.isEmpty || !policy.requirePriorBacktest⟩]

end PromotionPolicy

theorem sourceCommit_ne_empty {exp : Experiment} {cand : ExperimentCandidate} {hash : String}
    (h : sourceCommit exp cand = some hash) : hash ≠ "" := by
  unfold sourceCommit at h
  simp only at h
  split at h
  · cases h
  · rename_i hne
    rw [← Option.some.inj h]
    exact hne

/-! ## §3 Gate B -/

/-- What the gates read of a report's summary. -/
structure SimulationReportSummary where
  netReturnPct : ℚ
  maxDrawdownPct : ℚ
  executedTrades : ℕ
  runtimeErrorsCount : ℕ
  deriving DecidableEq

/-- The loop over the equity curve: the peak and the largest drawdown so far. -/
def drawdownStep (acc : ℚ × ℚ) (value : ℚ) : ℚ × ℚ :=
  let peak := if acc.1 < value then value else acc.1
  if 0 < peak then
    let drawdown := (peak - value) / peak * 100
    (peak, if acc.2 < drawdown then drawdown else acc.2)
  else (peak, acc.2)

/-- `_calculate_metrics`. -/
def calculateMetrics (round : ℕ → ℚ → ℚ) (executedTrades : ℕ) (equityCurve : List ℚ)
    (runtimeErrors : ℕ) : SimulationReportSummary :=
  match equityCurve with
  | [] => ⟨0, 0, executedTrades, runtimeErrors⟩
  | start :: rest =>
    let last := (rest.getLast?).getD start
    { netReturnPct := if 0 < start then round 4 ((last - start) / start * 100) else 0
      maxDrawdownPct := round 4 ((start :: rest).foldl drawdownStep (start, 0)).2
      executedTrades := executedTrades
      runtimeErrorsCount := runtimeErrors }

/-- `evaluate_gate_b`, against no baseline: no caller gives one. -/
def PromotionPolicy.evaluateGateB (policy : PromotionPolicy) (metrics : SimulationReportSummary) :
    GateEvaluationResult :=
  let tradesPassed := decide (policy.minTrades ≤ metrics.executedTrades)
  let ddPassed := decide (metrics.maxDrawdownPct ≤ policy.maxDrawdownPct)
  let returnPassed := decide (0 ≤ metrics.netReturnPct)
  let errorsPassed := decide (metrics.runtimeErrorsCount = 0)
  { decision :=
      if !tradesPassed then .inconclusive
      else if ddPassed && returnPassed && errorsPassed then .pass
      else .fail
    checks :=
      [⟨"minimum_executed_trades", tradesPassed⟩, ⟨"maximum_drawdown_limit", ddPassed⟩,
        ⟨"return_vs_baseline", returnPassed⟩, ⟨"runtime_stability", errorsPassed⟩] }

/-! ## §4 Gate C -/

/-- The characters that `str.strip` removes. -/
def isSpace (c : Char) : Bool :=
  let n := c.toNat
  (9 ≤ n && n ≤ 13) || (28 ≤ n && n ≤ 32) || n == 0x85 || n == 0xa0 || n == 0x1680 ||
    (0x2000 ≤ n && n ≤ 0x200a) || n == 0x2028 || n == 0x2029 || n == 0x202f || n == 0x205f ||
    n == 0x3000

/-- An approver without a name. -/
def isBlank (s : String) : Bool := s.toList.all isSpace

/-- `evaluate_gate_c`. -/
def PromotionPolicy.evaluateGateC (approver : String) (conflicts : ℕ) : GateEvaluationResult :=
  allPassed
    [⟨"authorized_approver", !isBlank approver⟩, ⟨"merge_conflict_free", decide (conflicts = 0)⟩]

theorem PromotionPolicy.evaluateGateC_eq_pass_iff (approver : String) (conflicts : ℕ) :
    (PromotionPolicy.evaluateGateC approver conflicts).decision = .pass ↔
      isBlank approver = false ∧ conflicts = 0 := by
  unfold PromotionPolicy.evaluateGateC
  rw [allPassed_eq_pass_iff]
  simp

end CryptoTrading.Experiments
