import CryptoTrading.Proposals.ProposalValidator

/-!
# What backs a promotion

Every summary has fall-backs for what is missing.  A check that sessions and runs leave open counts
as passed when both backtests have metrics, a run without a status as completed, all trades stand in
for round trips, and the average of the baseline for its folds.  So a promotion does not say that
everything was compared (`Compared`), but that whatever was recorded speaks for the candidate
(`Supported`).

One difference goes unseen: the tickers of two runs are compared only after two sessions have
answered the check, and a difference leaves it open otherwise, for the ticker of the evidence to
answer.  Such evidence is left out (`TickersChecked`).
-/

namespace CryptoTrading.Proposals

open CryptoTrading.Lib
open CryptoTrading.Persistence (BacktestSession ExecutionStatus)

variable (py : Python)

/-! ## §1 What is recorded -/

/-- Two sessions record the same. -/
def SessionsAgree (b c : BacktestSession ℚ ℚ) : Check → Prop
  | .ticker => b.tickerSymbol = c.tickerSymbol
  | .period =>
    b.request.startTime = c.request.startTime ∧ b.request.endTime = c.request.endTime
  | .dataset =>
    b.request.dataSource.sourceType = c.request.dataSource.sourceType ∧
      b.request.dataSource.path = c.request.dataSource.path
  | .initialBalance => b.request.initialBalance = c.request.initialBalance
  | .executionAssumptions =>
    b.request.execution.feeRate = c.request.execution.feeRate ∧
      b.request.execution.slippageTicks = c.request.execution.slippageTicks ∧
      b.request.execution.latencyMs = c.request.execution.latencyMs

/-- What a walk-forward run records. -/
def recordOf (run : Option Data) : Check → Value
  | .ticker => get (run.getD []) "ticker_symbol"
  | .dataset => get ((summaryOf run).getD []) "dataset_identity"
  | .executionAssumptions => get ((summaryOf run).getD []) "execution_assumptions"
  | .period => .null
  | .initialBalance => .null

/-- Both runs record the same. -/
def RunsAgree (evidence : CollectedEvidence) (check : Check) : Prop :=
  present evidence.baselineWfRun = true ∧ present evidence.candidateWfRun = true ∧
    truthy (recordOf evidence.baselineWfRun check) = true ∧
    py.equal (recordOf evidence.baselineWfRun check) (recordOf evidence.candidateWfRun check) = true

/-- Both runs record something, and not the same. -/
def RunsDiffer (evidence : CollectedEvidence) (check : Check) : Prop :=
  truthy (recordOf evidence.baselineWfRun check) = true ∧
    truthy (recordOf evidence.candidateWfRun check) = true ∧
    py.equal (recordOf evidence.baselineWfRun check)
      (recordOf evidence.candidateWfRun check) = false

/-- Both sides record the same. -/
def RecordedAlike (evidence : CollectedEvidence) (check : Check) : Prop :=
  (∃ b ∈ evidence.baselineSession, ∃ c ∈ evidence.candidateSession, SessionsAgree b c check) ∨
    RunsAgree py evidence check

/-- A run that is given has completed, as far as its status says. -/
def NotIncomplete (run : Option Data) : Prop :=
  ∀ r ∈ run, isNull (get r "status") = true ∨ saysCompleted py (get r "status") = true

def Completed (session : Option (BacktestSession ℚ ℚ)) : Prop :=
  ∀ s ∈ session, s.status = .completed

def roundTrips (btMetrics : Option Data) : Option ℚ :=
  extractNestedFloat py (btMetrics.getD []) "round_trips" ("behavior", "round_trips")

/-- At least 15 round trips, or trades where there are no round trips. -/
def EnoughTrades (btMetrics : Option Data) : Prop :=
  15 ≤ (roundTrips py btMetrics).getD 0 ∨
    (roundTrips py btMetrics).getD 0 = 0 ∧
      15 ≤ (extractFloat py (btMetrics.getD []) "total_trades").getD 0

/-- At least 3 out-of-sample folds, as the candidate's run counts them. -/
def EnoughFolds (evidence : CollectedEvidence) : Prop :=
  ∃ counts, extractOosWindowCounts py evidence = some counts ∧ 3 ≤ counts.1

/-- The drawdowns of the candidate, in the backtest and out of sample. -/
def candidateDrawdowns (evidence : CollectedEvidence) : List ℚ :=
  (extractFloat py (evidence.candidateBtMetrics.getD []) "max_drawdown_pct").toList ++
    (extractFloat py ((summaryOf evidence.candidateWfRun).getD []) "max_oos_drawdown_pct").toList

def WithinLimit (evidence : CollectedEvidence) : Prop :=
  ∃ limit, resolveMaxDrawdownLimit py evidence = some limit ∧
    ∀ drawdown ∈ candidateDrawdowns py evidence, drawdown ≤ limit

/-- The difference of the returns of the backtests. -/
def btReturnDelta (evidence : CollectedEvidence) : Option ℚ :=
  computeRawDelta (extractFloat py (evidence.baselineBtMetrics.getD []) "percentage_return")
    (extractFloat py (evidence.candidateBtMetrics.getD []) "percentage_return")

/-- The difference of the returns out of sample. -/
def oosReturnDelta (evidence : CollectedEvidence) : Option ℚ :=
  computeRawDelta
    (extractFloat py ((summaryOf evidence.baselineWfRun).getD []) "aggregate_oos_return_pct")
    (extractFloat py ((summaryOf evidence.candidateWfRun).getD []) "aggregate_oos_return_pct")

/-- The mean of fold differences is over its margin. -/
def OverMargin (evidence : CollectedEvidence) (foldDiffs : List ℚ) : Prop :=
  0 < mean foldDiffs - foldMargin py (effectiveZ py evidence) foldDiffs

/-- The difference of the backtests is over its margin, and that out of sample is positive. -/
def ReturnsOverMargin (evidence : CollectedEvidence) : Prop :=
  ∃ delta ∈ btReturnDelta py evidence, ∃ foldStd counts,
    computeFoldReturnStd py evidence = some foldStd ∧
      extractOosWindowCounts py evidence = some counts ∧
      0 < delta - normalMargin py (effectiveZ py evidence) foldStd counts.1 ∧
      ∃ oosDelta ∈ oosReturnDelta py evidence, 0 < oosDelta

/-- Baseline and candidate were compared in every respect. -/
structure Compared (evidence : CollectedEvidence) : Prop where
  recorded : ∀ check, RecordedAlike py evidence check
  runs : (∃ run ∈ evidence.baselineWfRun, saysCompleted py (get run "status") = true) ∧
    ∃ run ∈ evidence.candidateWfRun, saysCompleted py (get run "status") = true
  sessions : Completed evidence.baselineSession ∧ Completed evidence.candidateSession
  trades : (∃ n ∈ roundTrips py evidence.baselineBtMetrics, 15 ≤ n) ∧
    ∃ n ∈ roundTrips py evidence.candidateBtMetrics, 15 ≤ n
  folds : EnoughFolds py evidence
  drawdowns : WithinLimit py evidence
  outOfSample : ∃ delta ∈ oosReturnDelta py evidence, 0 ≤ delta
  paired : ∃ bFolds cFolds, extractFoldReturns py evidence.baselineWfRun = some bFolds ∧
    extractFoldReturns py evidence.candidateWfRun = some cFolds ∧
    bFolds.length = cFolds.length ∧
    OverMargin py evidence (bFolds.zipWith (fun b c => roundTo 4 (c - b)) cFolds)

/-- Whatever is recorded speaks for the candidate. -/
structure Supported (evidence : CollectedEvidence) : Prop where
  sessionsAgree : ∀ b ∈ evidence.baselineSession, ∀ c ∈ evidence.candidateSession,
    ∀ check, SessionsAgree b c check
  runsAgree : present evidence.baselineWfRun = true → present evidence.candidateWfRun = true →
    (∀ check, ¬ RunsDiffer py evidence check) ∧
      (evidence.baselineSession.isSome = true → evidence.candidateSession.isSome = true →
        py.equal (recordOf evidence.baselineWfRun .ticker)
          (recordOf evidence.candidateWfRun .ticker) = true)
  ticker : RecordedAlike py evidence .ticker ∨ evidence.tickerSymbol ≠ ""
  candidateRun : present evidence.candidateWfRun = true
  runs : NotIncomplete py evidence.baselineWfRun ∧ NotIncomplete py evidence.candidateWfRun
  sessions : Completed evidence.baselineSession ∧ Completed evidence.candidateSession
  trades : EnoughTrades py evidence.baselineBtMetrics ∧ EnoughTrades py evidence.candidateBtMetrics
  folds : EnoughFolds py evidence
  drawdowns : WithinLimit py evidence
  outOfSample : ∀ delta ∈ oosReturnDelta py evidence, 0 ≤ delta
  gains : (∀ delta ∈ btReturnDelta py evidence, 0 < delta) ∨
    ∃ delta ∈ oosReturnDelta py evidence, 0 < delta
  distinct : ∃ foldDiffs, extractPairedFoldDiffs py evidence = some foldDiffs ∧
    (2 ≤ foldDiffs.length ∧ OverMargin py evidence foldDiffs ∨
      foldDiffs.length < 2 ∧ ReturnsOverMargin py evidence)

variable {py}

/-! ## §2 Comparability -/

namespace ComparabilityReport

@[simp] theorem discrepancies_verify (check : Check) (report : ComparabilityReport) :
    (report.verify check).discrepancies = report.discrepancies := rfl

@[simp] theorem discrepancies_differ (check : Check) (d : String) (report : ComparabilityReport) :
    (report.differ check d).discrepancies = report.discrepancies ++ [d] := rfl

@[simp] theorem same_verify (check : Check) (report : ComparabilityReport) :
    (report.verify check).same = Function.update report.same check (some true) := rfl

@[simp] theorem same_differ (check : Check) (d : String) (report : ComparabilityReport) :
    (report.differ check d).same = Function.update report.same check (some false) := rfl

end ComparabilityReport

open ComparabilityReport

end CryptoTrading.Proposals
