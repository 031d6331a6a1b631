import CryptoTrading.Proposals.Evidence

/-!
# The five summaries of the evidence

Embeds `EvidenceEvaluator` in `src/proposals/evidence_evaluator.py`, with the summaries it builds
(`api/interfaces/evidence_proposal.py`).

`none` stands for an exception, after which there is no verdict.
-/

namespace CryptoTrading.Proposals

open CryptoTrading.Lib
open CryptoTrading.Persistence (BacktestSession ExecutionStatus executionStatusValue)

/-! ## §1 Comparability -/

/-- What baseline and candidate are compared on. -/
inductive Check where
  | ticker | period | dataset | executionAssumptions | initialBalance
  deriving DecidableEq

def Check.name : Check → String
  | .ticker => "same_ticker"
  | .period => "same_period"
  | .dataset => "same_dataset"
  | .executionAssumptions => "same_execution_assumptions"
  | .initialBalance => "same_initial_balance"

/-- `VerificationStatus`. -/
inductive VerificationStatus where
  | verified | mismatch | unknown
  deriving DecidableEq

/-- `ComparabilityReport`.  The answers to the checks, `same_ticker` and the others, are one
function. -/
structure ComparabilityReport where
  isComparable : Bool
  verificationStatus : VerificationStatus
  same : Check → Option Bool
  verifiedChecks : List String
  unknownChecks : List String
  discrepancies : List String

namespace ComparabilityReport

/-- `ComparabilityReport()`. -/
def empty : ComparabilityReport := ⟨false, .unknown, fun _ => none, [], [], []⟩

/-- The check is answered with yes. -/
def verify (check : Check) (report : ComparabilityReport) : ComparabilityReport :=
  { report with
    same := Function.update report.same check (some true)
    verifiedChecks := report.verifiedChecks ++ [check.name] }

/-- The check is answered with no. -/
def differ (check : Check) (discrepancy : String) (report : ComparabilityReport) :
    ComparabilityReport :=
  { report with
    same := Function.update report.same check (some false)
    discrepancies := report.discrepancies ++ [discrepancy] }

/-- One check of a pair of sessions. -/
def compare (check : Check) (equal : Bool) (discrepancy : String) (report : ComparabilityReport) :
    ComparabilityReport :=
  if equal then report.verify check else report.differ check discrepancy

/-- One check that nothing has answered. -/
def assume (check : Check) (evident : Bool) (report : ComparabilityReport) : ComparabilityReport :=
  if report.same check = none && evident then report.verify check else report

end ComparabilityReport

variable (py : Python)

/-- `_check_session_comparability`. -/
def checkSessionComparability (evidence : CollectedEvidence) (report : ComparabilityReport) :
    ComparabilityReport :=
  match evidence.baselineSession, evidence.candidateSession with
  | some b, some c =>
    let report := report.compare .ticker (b.tickerSymbol = c.tickerSymbol)
      ("Ticker mismatch: baseline=" ++ b.tickerSymbol ++ ", candidate=" ++ c.tickerSymbol)
    let report := report.compare .period
      (b.request.startTime = c.request.startTime && b.request.endTime = c.request.endTime)
      "Evaluation period start_time or end_time differs between baseline and candidate."
    let report := report.compare .dataset
      (b.request.dataSource.sourceType = c.request.dataSource.sourceType &&
        b.request.dataSource.path = c.request.dataSource.path)
      "Market data source or dataset path differs between baseline and candidate."
    let report := report.compare .initialBalance
      (b.request.initialBalance = c.request.initialBalance)
      "Initial balance differs between baseline and candidate."
    report.compare .executionAssumptions
      (b.request.execution.feeRate = c.request.execution.feeRate &&
        b.request.execution.slippageTicks = c.request.execution.slippageTicks &&
        b.request.execution.latencyMs = c.request.execution.latencyMs)
      "Execution cost assumptions (fees, slippage, or latency) differ."
  | _, _ => report

/-- The check of the ticker symbols of two runs. -/
def checkRunTickers (bTicker cTicker : Value) (report : ComparabilityReport) :
    ComparabilityReport :=
  if report.same .ticker = none then
    if truthy bTicker && py.equal bTicker cTicker then report.verify .ticker else report
  else if py.equal bTicker cTicker then report
  else report.differ .ticker "Walk-forward ticker symbol mismatch."

/-- The check of what the summaries of two runs record under one key. -/
def checkSummaries (check : Check) (bValue cValue : Value) (discrepancy : String)
    (report : ComparabilityReport) : ComparabilityReport :=
  if truthy bValue && truthy cValue && !py.equal bValue cValue then report.differ check discrepancy
  else if report.same check = none && truthy bValue && py.equal bValue cValue then
    report.verify check
  else report

/-- `_check_walk_forward_comparability`. -/
def checkWalkForwardComparability (evidence : CollectedEvidence) (report : ComparabilityReport) :
    Option ComparabilityReport :=
  if present evidence.baselineWfRun && present evidence.candidateWfRun then do
    let bSum ← summaryOf evidence.baselineWfRun
    let cSum ← summaryOf evidence.candidateWfRun
    let report := checkRunTickers py (get (evidence.baselineWfRun.getD []) "ticker_symbol")
      (get (evidence.candidateWfRun.getD []) "ticker_symbol") report
    let report := checkSummaries py .dataset (get bSum "dataset_identity")
      (get cSum "dataset_identity") "Walk-forward dataset identity mismatch." report
    some (checkSummaries py .executionAssumptions (get bSum "execution_assumptions")
      (get cSum "execution_assumptions") "Walk-forward execution assumptions mismatch." report)
  else some report

/-- `has_eval_evidence`. -/
def hasEvalEvidence (evidence : CollectedEvidence) : Bool :=
  (present evidence.baselineBtMetrics && present evidence.candidateBtMetrics) ||
    (present evidence.baselineWfRun && present evidence.candidateWfRun)

/-- What stands for a check that neither sessions nor runs have answered. -/
def evident (evidence : CollectedEvidence) : Check → Bool
  | .ticker => evidence.tickerSymbol ≠ ""
  | .period => evidence.evaluationPeriod.isSome || hasEvalEvidence evidence
  | .dataset => evidence.datasetId.any (fun id => id ≠ "") || hasEvalEvidence evidence
  | .executionAssumptions => !evidence.executionAssumptions.isEmpty || hasEvalEvidence evidence
  | .initialBalance => !evidence.executionAssumptions.isEmpty || hasEvalEvidence evidence

/-- The order in which open checks are filled in. -/
def assumeChecks (evidence : CollectedEvidence) (report : ComparabilityReport) :
    ComparabilityReport :=
  [Check.ticker, .executionAssumptions, .period, .dataset, .initialBalance].foldl
    (fun report check => report.assume check (evident evidence check)) report

/-- The checks without an answer. -/
def unanswered (report : ComparabilityReport) : List String :=
  ([Check.ticker, .period, .dataset, .executionAssumptions, .initialBalance].filter fun check =>
    report.same check = none).map Check.name

/-- `_finalize_comparability_status`. -/
def finalizeComparabilityStatus (evidence : CollectedEvidence) (report : ComparabilityReport) :
    ComparabilityReport :=
  let report := assumeChecks evidence report
  let report := { report with unknownChecks := report.unknownChecks ++ unanswered report }
  if report.discrepancies ≠ [] then
    { report with verificationStatus := .mismatch, isComparable := false }
  else if report.unknownChecks = [] then
    { report with verificationStatus := .verified, isComparable := true }
  else
    { report with
      verificationStatus := .unknown
      isComparable := false
      discrepancies := report.discrepancies ++
        ["Missing session records: comparability unverified for: " ++
          String.intercalate ", " report.unknownChecks ++ "."] }

/-- `evaluate_comparability`. -/
def evaluateComparability (evidence : CollectedEvidence) : Option ComparabilityReport :=
  (checkWalkForwardComparability py evidence (checkSessionComparability evidence .empty)).map
    (finalizeComparabilityStatus evidence)

/-! ## §2 Expected benefit -/

/-- `MetricComparison`. -/
structure MetricComparison where
  metricName : String
  baselineValue : Option ℚ
  candidateValue : Option ℚ
  absoluteDelta : Option ℚ
  relativeDeltaPct : Option ℚ
  isImprovement : Option Bool

/-- `_compare_metric`. -/
def compareMetric (name : String) (baselineVal candidateVal : Option ℚ)
    (higherIsBetter : Option Bool) : MetricComparison :=
  match baselineVal, candidateVal with
  | some b, some c =>
    let absDelta := roundTo 4 (c - b)
    { metricName := name
      baselineValue := some (roundTo 4 b)
      candidateValue := some (roundTo 4 c)
      absoluteDelta := some absDelta
      relativeDeltaPct :=
        if 1 / 10 ^ 9 < |b| then some (roundTo 2 (absDelta / |b| * 100)) else none
      isImprovement :=
        higherIsBetter.map fun higher => if higher then 0 < absDelta else absDelta < 0 }
  | _, _ => ⟨name, baselineVal, candidateVal, none, none, none⟩

/-- `ExpectedBenefitSummary`. -/
structure ExpectedBenefitSummary where
  netPnl : MetricComparison
  netReturnPct : MetricComparison
  expectancyPerTrade : MetricComparison
  maxDrawdownPct : MetricComparison
  profitFactor : MetricComparison
  winRatePct : MetricComparison
  sharpeRatio : MetricComparison
  outOfSampleReturnPct : Option MetricComparison
  walkForwardEfficiency : Option MetricComparison
  tradeFrequencyRoundTrips : MetricComparison
  exposureTimePct : MetricComparison
  regimeBreakdown : List (String × MetricComparison)

/-- The comparison of a metric at the top of both dictionaries. -/
def compareFloat (bBt cBt : Data) (name key : String) (higherIsBetter : Option Bool) :
    MetricComparison :=
  compareMetric name (extractFloat py bBt key) (extractFloat py cBt key) higherIsBetter

/-- The comparison of a metric at the top or in a section. -/
def compareNested (bBt cBt : Data) (name key : String) (path : String × String)
    (higherIsBetter : Option Bool) : MetricComparison :=
  compareMetric name (extractNestedFloat py bBt key path) (extractNestedFloat py cBt key path)
    higherIsBetter

/-- `_evaluate_walk_forward_benefit`. -/
def evaluateWalkForwardBenefit (evidence : CollectedEvidence) :
    Option (Option MetricComparison × Option MetricComparison) := do
  let bSum ← summaryOf evidence.baselineWfRun
  let cSum ← summaryOf evidence.candidateWfRun
  if bSum.isEmpty && cSum.isEmpty then some (none, none)
  else
    some
      (some (compareFloat py bSum cSum "out_of_sample_return_pct" "aggregate_oos_return_pct"
        (some true)),
      some (compareFloat py bSum cSum "walk_forward_efficiency" "walk_forward_efficiency"
        (some true)))

/-- The comparison of one regime, unless neither side has a return or a profit for it. -/
def compareRegime (bReg cReg : Data) (regime : String) :
    Option (Option (String × MetricComparison)) := do
  let bEntry ← getDict bReg regime
  let cEntry ← getDict cReg regime
  let compared (key : String) : Option (String × MetricComparison) :=
    match extractFloat py bEntry key, extractFloat py cEntry key with
    | none, none => none
    | bVal, cVal =>
      some (regime, compareMetric ("regime_" ++ regime ++ "_return") bVal cVal (some true))
  match compared "avg_return_pct" with
  | some comparison => some (some comparison)
  | none => some (compared "net_pnl")

/-- `_evaluate_regime_breakdown`. -/
def evaluateRegimeBreakdown (bBt cBt : Data) : Option (List (String × MetricComparison)) := do
  let bReg ← getDict bBt "regime_attribution"
  let cReg ← getDict cBt "regime_attribution"
  let allRegimes := (bReg.map Prod.fst ++ cReg.map Prod.fst).dedup.insertionSort fun a b => a ≤ b
  let breakdown ← allRegimes.mapM (compareRegime py bReg cReg)
  some breakdown.reduceOption

/-- `evaluate_expected_benefit`. -/
def evaluateExpectedBenefit (evidence : CollectedEvidence) : Option ExpectedBenefitSummary := do
  let bBt := evidence.baselineBtMetrics.getD []
  let cBt := evidence.candidateBtMetrics.getD []
  let (oosReturn, wfe) ← evaluateWalkForwardBenefit py evidence
  let breakdown ← evaluateRegimeBreakdown py bBt cBt
  let behavior (name key : String) := compareNested py bBt cBt name key ("behavior", key)
  some
    { netPnl := compareFloat py bBt cBt "net_pnl" "net_pnl" (some true)
      netReturnPct := compareFloat py bBt cBt "net_return_pct" "percentage_return" (some true)
      expectancyPerTrade := behavior "expectancy_per_trade" "expectancy" (some true)
      maxDrawdownPct := compareFloat py bBt cBt "max_drawdown_pct" "max_drawdown_pct" (some false)
      profitFactor := behavior "profit_factor" "profit_factor" (some true)
      winRatePct := behavior "win_rate_pct" "win_rate_pct" (some true)
      sharpeRatio := compareNested py bBt cBt "sharpe_ratio" "sharpe_ratio"
        ("risk_adjusted", "sharpe_ratio") (some true)
      outOfSampleReturnPct := oosReturn
      walkForwardEfficiency := wfe
      tradeFrequencyRoundTrips := behavior "trade_frequency_round_trips" "round_trips" none
      exposureTimePct := behavior "exposure_time_pct" "exposure_time_pct" none
      regimeBreakdown := breakdown }

/-- The difference of the returns, if both backtests have one. -/
def ExpectedBenefitSummary.btDelta (benefit : ExpectedBenefitSummary) : Option ℚ :=
  benefit.netReturnPct.absoluteDelta

/-- The difference of the returns out of sample, if both runs have one. -/
def ExpectedBenefitSummary.oosDelta (benefit : ExpectedBenefitSummary) : Option ℚ :=
  benefit.outOfSampleReturnPct.bind MetricComparison.absoluteDelta

/-! ## §3 Sample size -/

def minIndependentOosFolds : ℤ := 3

def minTradesBaselineFloor : ℤ := 15

def zAlphaTwoSided95 : ℚ := 1.96

def zBetaPower80 : ℚ := 0.8416

/-- `SampleSizeSummary`, without its constant fields. -/
structure SampleSizeSummary where
  baselineTrades : ℤ
  candidateTrades : ℤ
  independentOosWindows : ℤ
  profitableOosWindows : ℤ
  evaluationDurationDays : ℚ
  calendarDaysObserved : ℤ
  regimesCovered : List String
  estimatedRequiredSampleSize : ℤ
  sufficiencyRationale : String
  isSampleSufficient : Bool

/-- `fold_std if fold_std and fold_std > 0 else DEFAULT_FALLBACK_RETURN_STD_PCT`. -/
def returnDeviation (foldStd : Option ℚ) : ℚ := (foldStd.filter fun std => 0 < std).getD 5

/-- `estimate_required_sample_size`. -/
def estimateRequiredSampleSize (sigma delta : ℚ) : ℤ :=
  if delta ≤ 0 || sigma ≤ 0 then minTradesBaselineFloor
  else max ⌈((zAlphaTwoSided95 + zBetaPower80) * sigma / delta) ^ 2⌉ 1

def isNarrowDuration (durationDays : ℚ) : Bool := 0 < durationDays && durationDays < 2

/-- The flag of `_determine_sample_sufficiency`. -/
def isSufficient (minTrades oosWindows : ℤ) (durationDays : ℚ) (regimesCovered : List String) :
    Bool :=
  minTradesBaselineFloor ≤ minTrades && minIndependentOosFolds ≤ oosWindows &&
    !isNarrowDuration durationDays &&
    (2 ≤ regimesCovered.length || minIndependentOosFolds ≤ oosWindows)

/-- The text of `_determine_sample_sufficiency`. -/
def sufficiencyRationale (minTrades oosWindows : ℤ) (durationDays : ℚ)
    (regimesCovered : List String) : String :=
  if isSufficient minTrades oosWindows durationDays regimesCovered then
    "Sample satisfies heuristic thresholds across trade count, out-of-sample folds, and " ++
      "evaluation duration."
  else
    String.intercalate "; "
      ((if minTrades < minTradesBaselineFloor then
          ["Completed trade count (" ++ toString minTrades ++ ") is below minimum floor (" ++
            toString minTradesBaselineFloor ++ ")."] else []) ++
        (if oosWindows < minIndependentOosFolds then
          ["Independent test windows (" ++ toString oosWindows ++ ") below minimum (" ++
            toString minIndependentOosFolds ++ ")."] else []) ++
        (if isNarrowDuration durationDays then
          ["Evaluation duration (" ++ py.fixed 1 durationDays ++
            "d) is narrow (<2d); trades may be correlated."] else []) ++
        (if regimesCovered.length < 2 && oosWindows < minIndependentOosFolds then
          ["Fewer than 2 distinct market regimes observed."] else []))

/-- The fewer of the trades of both sides, if both have some. -/
def tradesOfBoth (bTrades cTrades : ℤ) : ℤ :=
  if 0 < bTrades && 0 < cTrades then min bTrades cTrades else 0

/-- `evaluate_sample_size`. -/
def evaluateSampleSize (evidence : CollectedEvidence) : Option SampleSizeSummary := do
  let bBt := evidence.baselineBtMetrics.getD []
  let cBt := evidence.candidateBtMetrics.getD []
  let bTrades := extractTradeCount py bBt
  let cTrades := extractTradeCount py cBt
  let (oosWindows, profitableWindows) ← extractOosWindowCounts py evidence
  let regimesCovered ← extractCoveredRegimes py bBt cBt
  let durationDays ← computeDurationDays evidence
  let foldStd ← computeFoldReturnStd py evidence
  let minTrades := tradesOfBoth bTrades cTrades
  some
    { baselineTrades := bTrades
      candidateTrades := cTrades
      independentOosWindows := oosWindows
      profitableOosWindows := profitableWindows
      evaluationDurationDays := durationDays
      calendarDaysObserved := if 0 < durationDays then ⌈durationDays⌉ else 0
      regimesCovered := regimesCovered
      estimatedRequiredSampleSize := estimateRequiredSampleSize (returnDeviation foldStd) 1
      sufficiencyRationale :=
        sufficiencyRationale py minTrades oosWindows durationDays regimesCovered
      isSampleSufficient := isSufficient minTrades oosWindows durationDays regimesCovered }

/-! ## §4 Uncertainty -/

/-- `ConfidenceInterval`. -/
structure ConfidenceInterval where
  metricName : String
  pointEstimate : ℚ
  lowerBound : ℚ
  upperBound : ℚ
  confidenceLevel : ℚ
  method : String

/-- `CandidateSearchSummary`, without its constant field. -/
structure CandidateSearchSummary where
  searchAlgorithm : String
  candidatesEvaluatedCount : ℤ
  topCandidates : List Data
  holdoutDatasetIdentified : Bool

/-- `UncertaintyAssessment`. -/
structure UncertaintyAssessment where
  intervals : List ConfidenceInterval
  foldReturnStdPct : Option ℚ
  multipleTestingCandidatesCount : ℤ
  selectionBiasWarning : Bool
  holdoutValidated : Bool
  candidateSearchSummary : Option CandidateSearchSummary
  missingEvidence : List String
  canDistinguishFromNoise : Bool

/-- Whether the status of a walk-forward run says that it has completed. -/
def saysCompleted (status : Value) : Bool :=
  upper (py.str status) = "COMPLETED" || upper (py.str status) = "EXECUTIONSTATUS.COMPLETED"

def isNull : Value → Bool
  | .null => true
  | _ => false

/-- The failure of a session, if there is one that has not completed. -/
def sessionFailure (side : String) (session : Option (BacktestSession ℚ ℚ)) : List String :=
  match session with
  | some session =>
    if session.status ≠ .completed then
      [side ++ " backtest session is incomplete (status=" ++
        executionStatusValue session.status ++ ")."]
    else []
  | none => []

/-- The failure of a walk-forward run, if there is one whose status is another. -/
def runFailure (side : String) (run : Option Data) : List String :=
  match run with
  | some run =>
    let status := get run "status"
    if !isNull status && !saysCompleted py status then
      [side ++ " walk-forward run is incomplete (status=" ++ py.str status ++ ")."]
    else []
  | none => []

/-- `detect_incomplete_or_failed_runs`. -/
def detectIncompleteOrFailedRuns (evidence : CollectedEvidence) : List String :=
  sessionFailure "Baseline" evidence.baselineSession ++
    sessionFailure "Candidate" evidence.candidateSession ++
    runFailure py "Baseline" evidence.baselineWfRun ++
    runFailure py "Candidate" evidence.candidateWfRun

/-- `_collect_missing_evidence`. -/
def collectMissingEvidence (evidence : CollectedEvidence) (sampleSize : SampleSizeSummary) :
    List String :=
  detectIncompleteOrFailedRuns py evidence ++
    (if present evidence.baselineBtMetrics then [] else
      ["Baseline backtest metrics are missing."]) ++
    (if present evidence.candidateBtMetrics then [] else
      ["Candidate backtest metrics are missing."]) ++
    (if present evidence.baselineWfRun && present evidence.candidateWfRun then [] else
      ["Comparable walk-forward out-of-sample runs are missing."]) ++
    (if sampleSize.regimesCovered = [] then
      ["Market regime attribution breakdown is unavailable."] else [])

/-- The margin of the mean of differences. -/
def foldMargin (effectiveZ : ℚ) (foldDiffs : List ℚ) : ℚ :=
  effectiveZ * py.sqrt (sampleVariance foldDiffs / foldDiffs.length)

/-- `_build_fold_interval`. -/
def buildFoldInterval (foldDiffs : List ℚ) (effectiveZ : ℚ) (sampleSize : SampleSizeSummary) :
    List ConfidenceInterval × Bool :=
  let margin := foldMargin py effectiveZ foldDiffs
  let lower := roundTo 4 (mean foldDiffs - margin)
  ([{ metricName := "oos_fold_return_delta_pct"
      pointEstimate := roundTo 4 (mean foldDiffs)
      lowerBound := lower
      upperBound := roundTo 4 (mean foldDiffs + margin)
      confidenceLevel := 0.95
      method := "paired_walk_forward_fold_t_interval" }],
    0 < lower && minIndependentOosFolds ≤ sampleSize.independentOosWindows)

/-- The margin of a difference of two backtests. -/
def normalMargin (effectiveZ : ℚ) (foldStd : Option ℚ) (oosWindows : ℤ) : ℚ :=
  effectiveZ * (returnDeviation foldStd / py.sqrt (max oosWindows 2 : ℤ))

/-- `_build_normal_interval`, for a known difference. -/
def buildNormalInterval (point : ℚ) (benefit : ExpectedBenefitSummary)
    (sampleSize : SampleSizeSummary) (foldStd : Option ℚ) (effectiveZ : ℚ) :
    List ConfidenceInterval × Bool :=
  let margin := normalMargin py effectiveZ foldStd sampleSize.independentOosWindows
  let lower := roundTo 4 (point - margin)
  ([{ metricName := "net_return_delta_pct"
      pointEstimate := roundTo 4 point
      lowerBound := lower
      upperBound := roundTo 4 (point + margin)
      confidenceLevel := 0.95
      method := "normal_approximation_interval" }],
    0 < lower && sampleSize.isSampleSufficient && 0 < benefit.oosDelta.getD 0)

/-- `_compute_uncertainty_intervals`. -/
def computeUncertaintyIntervals (evidence : CollectedEvidence) (benefit : ExpectedBenefitSummary)
    (sampleSize : SampleSizeSummary) (foldStd : Option ℚ) (effectiveZ : ℚ) :
    Option (List ConfidenceInterval × Bool) := do
  let foldDiffs ← extractPairedFoldDiffs py evidence
  if 2 ≤ foldDiffs.length then some (buildFoldInterval py foldDiffs effectiveZ sampleSize)
  else
    match benefit.btDelta with
    | some point =>
      if 2 ≤ sampleSize.candidateTrades then
        some (buildNormalInterval py point benefit sampleSize foldStd effectiveZ)
      else some ([], false)
    | none => some ([], false)

/-- `max(evidence.total_candidates_tested, 1)`. -/
def candidatesTested (evidence : CollectedEvidence) : ℤ := max evidence.totalCandidatesTested 1

/-- The quantile for a margin, which grows with the candidates there were. -/
def effectiveZ (evidence : CollectedEvidence) : ℚ :=
  if 1 < candidatesTested evidence then
    zAlphaTwoSided95 + 0.35 * py.log (candidatesTested evidence)
  else zAlphaTwoSided95

/-- `evaluate_uncertainty`. -/
def evaluateUncertainty (evidence : CollectedEvidence) (benefit : ExpectedBenefitSummary)
    (sampleSize : SampleSizeSummary) : Option UncertaintyAssessment := do
  let foldStd ← computeFoldReturnStd py evidence
  let selectionBiasWarning : Bool := 1 < candidatesTested evidence
  let (intervals, canDistinguish) ← computeUncertaintyIntervals py evidence benefit sampleSize
    foldStd (effectiveZ py evidence)
  let searched := !evidence.candidateSearchHistory.isEmpty
  some
    { intervals := intervals
      foldReturnStdPct := foldStd.map (roundTo 4)
      multipleTestingCandidatesCount := candidatesTested evidence
      selectionBiasWarning := selectionBiasWarning
      holdoutValidated := evidence.holdoutValidated
      candidateSearchSummary :=
        if selectionBiasWarning || searched then
          some
            { searchAlgorithm := if searched then "heuristic_walk_forward" else "single_candidate"
              candidatesEvaluatedCount := candidatesTested evidence
              topCandidates := evidence.candidateSearchHistory
              holdoutDatasetIdentified := evidence.holdoutValidated }
        else none
      missingEvidence :=
        collectMissingEvidence py evidence sampleSize ++
          if selectionBiasWarning && !evidence.holdoutValidated then
            ["Selected across multiple candidates without independent holdout dataset " ++
              "validation; threshold adjustment alone cannot rule out data-mining selection bias."]
          else []
      canDistinguishFromNoise := canDistinguish }

/-! ## §5 Risk -/

/-- `RiskDeltaSummary`. -/
structure RiskDeltaSummary where
  maxDrawdownPctDelta : Option ℚ
  downsideDeviationPctDelta : Option ℚ
  annualizedVolatilityPctDelta : Option ℚ
  peakExposurePctDelta : Option ℚ
  avgExposurePctDelta : Option ℚ
  concentrationHhiDelta : Option ℚ
  largestLossDelta : Option ℚ
  maxConsecutiveLossesDelta : Option ℤ
  riskLimitBreaches : List String
  riskIncreased : Bool
  downsideUncertaintyHigh : Bool

/-- `_compute_effective_drawdown_delta`: of the backtests, or else out of sample. -/
def computeEffectiveDrawdownDelta (evidence : CollectedEvidence) (bBt cBt : Data) :
    Option (Option ℚ) :=
  match computeRawDelta (extractFloat py bBt "max_drawdown_pct")
    (extractFloat py cBt "max_drawdown_pct") with
  | some delta => some (some delta)
  | none => do
    let bSum ← summaryOf evidence.baselineWfRun
    let cSum ← summaryOf evidence.candidateWfRun
    some (computeRawDelta (extractFloat py bSum "max_oos_drawdown_pct")
      (extractFloat py cSum "max_oos_drawdown_pct"))

/-- The difference of a metric of both sides. -/
def nestedDelta (bBt cBt : Data) (area key : String) : Option ℚ :=
  computeRawDelta (extractNestedFloat py bBt key (area, key))
    (extractNestedFloat py cBt key (area, key))

/-- `_compute_consecutive_losses_delta`. -/
def computeConsecutiveLossesDelta (bBt cBt : Data) : Option ℤ := do
  let path := ("behavior", "max_consecutive_losses")
  let bConsec ← extractNestedFloat py bBt "max_consecutive_losses" path
  let cConsec ← extractNestedFloat py cBt "max_consecutive_losses" path
  some (truncate (cConsec - bConsec))

/-- The breach of a drawdown over the limit. -/
def drawdownBreach (kind : String) (drawdown : Option ℚ) (limit : ℚ) : List String :=
  match drawdown with
  | some drawdown =>
    if limit < drawdown then
      ["Candidate " ++ kind ++ " max drawdown (" ++ py.fixed 2 drawdown ++ "%) exceeds limit (" ++
        py.fixed 2 limit ++ "%)."]
    else []
  | none => []

/-- `_evaluate_risk_breaches`. -/
def evaluateRiskBreaches (evidence : CollectedEvidence) (cBt : Data) : Option (List String) := do
  let limit ← resolveMaxDrawdownLimit py evidence
  let summary ← summaryOf evidence.candidateWfRun
  some (drawdownBreach py "backtest" (extractFloat py cBt "max_drawdown_pct") limit ++
    drawdownBreach py "out-of-sample" (extractFloat py summary "max_oos_drawdown_pct") limit)

/-- `evaluate_risk_changes`. -/
def evaluateRiskChanges (evidence : CollectedEvidence) : Option RiskDeltaSummary := do
  let bBt := evidence.baselineBtMetrics.getD []
  let cBt := evidence.candidateBtMetrics.getD []
  let ddDelta ← computeEffectiveDrawdownDelta py evidence bBt cBt
  let breaches ← evaluateRiskBreaches py evidence cBt
  let volDelta := nestedDelta py bBt cBt "risk_adjusted" "annualized_volatility_pct"
  let peakExpDelta := nestedDelta py bBt cBt "portfolio" "peak_exposure_pct"
  some
    { maxDrawdownPctDelta := ddDelta
      downsideDeviationPctDelta := nestedDelta py bBt cBt "risk_adjusted" "downside_deviation_pct"
      annualizedVolatilityPctDelta := volDelta
      peakExposurePctDelta := peakExpDelta
      avgExposurePctDelta := nestedDelta py bBt cBt "portfolio" "avg_exposure_pct"
      concentrationHhiDelta := nestedDelta py bBt cBt "portfolio" "concentration_hhi"
      largestLossDelta := nestedDelta py bBt cBt "behavior" "largest_loss"
      maxConsecutiveLossesDelta := computeConsecutiveLossesDelta py bBt cBt
      riskLimitBreaches := breaches
      riskIncreased :=
        ddDelta.any (fun delta => 3 < delta) || volDelta.any (fun delta => 5 < delta) ||
          peakExpDelta.any (fun delta => 10 < delta) || !breaches.isEmpty
      downsideUncertaintyHigh :=
        !present evidence.candidateBtMetrics || !present evidence.candidateWfRun || ddDelta.isNone }

end CryptoTrading.Proposals
