import CryptoTrading.Agent.ConfigurationPaths
import CryptoTrading.Lib.Rounding
import CryptoTrading.Lib.Text
import CryptoTrading.Persistence.EntityMappers
import Mathlib.Data.List.Sort

/-!
# Collected evidence

Embeds `CollectedEvidence` of `src/proposals/models.py` and the accessors by which
`EvidenceEvaluator` in `src/proposals/evidence_evaluator.py` reads it.

Metrics and walk-forward runs are raw dictionaries, any field of which can be missing or hold any
value.  Numbers are exact.  What Python makes of texts, and the functions of `math`, are parameters.

`none` as the result of an accessor that expects a dictionary or a list stands for the exception it
raises on anything else.
-/

namespace CryptoTrading.Proposals

open CryptoTrading.Lib
open CryptoTrading.Agent.Configuration (Json Fields)
open CryptoTrading.Persistence (BacktestSession Datetime)

/-! ## §1 Values -/

/-- A value of a raw dictionary. -/
abbrev Value := Json ℚ

/-- A raw dictionary. -/
abbrev Data := Fields ℚ

/-- What Python makes of values. -/
structure Python where
  str : Value → String
  equal : Value → Value → Bool
  /-- `float(text)`; nothing where it raises. -/
  floatOf : String → Option ℚ
  /-- `int(text)`; nothing where it raises. -/
  intOf : String → Option ℤ
  /-- A number with so many decimal places. -/
  fixed : ℕ → ℚ → String
  sqrt : ℚ → ℚ
  log : ℤ → ℚ

variable (py : Python)

/-- `bool(value)`. -/
def truthy : Value → Bool
  | .null => false
  | .bool b => b
  | .number n => n ≠ 0
  | .string s => s ≠ ""
  | .list entries => !entries.isEmpty
  | .object fields => !fields.isEmpty

/-- `bool(data)` for a dictionary that may be missing. -/
def present (data : Option Data) : Bool := data.any fun fields => !fields.isEmpty

/-- `data.get(key)`. -/
def get (data : Data) (key : String) : Value := (Dict.findIn key data).getD .null

/-- `data.get(key) or {}`, of which entries are read. -/
def getDict (data : Data) (key : String) : Option Data :=
  match get data key with
  | .object fields => some fields
  | value => if truthy value then none else some []

/-- The values that a loop runs over. -/
def iterate : Value → Option (List Value)
  | .list entries => some entries
  | .object fields => some (fields.map fun entry => .string entry.1)
  | .string s => some (s.toList.map fun c => .string (String.singleton c))
  | _ => none

/-- `first or second or .. or []`, which a loop runs over. -/
def iterateFirst (values : List Value) : Option (List Value) :=
  match values.find? truthy with
  | some value => iterate value
  | none => some []

/-- `int(value)` for a number: without its fraction. -/
def truncate (x : ℚ) : ℤ := if 0 ≤ x then ⌊x⌋ else ⌈x⌉

/-- `int(value or 0)`; nothing where it raises. -/
def intOrZero (value : Value) : Option ℤ :=
  match value with
  | .number n => some (truncate n)
  | .bool true => some 1
  | .string s => if s = "" then some 0 else py.intOf s
  | value => if truthy value then none else some 0

/-- `_extract_float`. -/
def extractFloat (data : Data) (key : String) : Option ℚ :=
  match get data key with
  | .number n => some n
  | .bool b => some (if b then 1 else 0)
  | .string s => py.floatOf s
  | _ => none

/-- `_extract_nested_float`, where the nested path is a section and a key. -/
def extractNestedFloat (data : Data) (topKey : String) (path : String × String) : Option ℚ :=
  match extractFloat py data topKey with
  | some direct => some direct
  | none =>
    match get data path.1 with
    | .object fields => extractFloat py fields path.2
    | _ => none

/-- `_compute_raw_delta`. -/
def computeRawDelta : Option ℚ → Option ℚ → Option ℚ
  | some baseVal, some candVal => some (roundTo 4 (candVal - baseVal))
  | _, _ => none

/-! ## §2 Evidence -/

/-- `BacktestPeriodSpec`. -/
structure BacktestPeriodSpec where
  startTime : Option Datetime
  endTime : Option Datetime

/-- `CollectedEvidence`, as far as it is evaluated. -/
structure CollectedEvidence where
  tickerSymbol : String
  totalCandidatesTested : ℤ
  candidateSearchHistory : List Data
  holdoutValidated : Bool
  datasetId : Option String
  baselineSession : Option (BacktestSession ℚ ℚ)
  candidateSession : Option (BacktestSession ℚ ℚ)
  baselineBtMetrics : Option Data
  candidateBtMetrics : Option Data
  baselineWfRun : Option Data
  candidateWfRun : Option Data
  baselineConfig : Option Data
  candidateConfig : Option Data
  evaluationPeriod : Option BacktestPeriodSpec
  executionAssumptions : Data

/-- `(run or {}).get("summary") or {}`. -/
def summaryOf (run : Option Data) : Option Data := getDict (run.getD []) "summary"

/-- The return of one fold, by the first of its fields that has a number. -/
def foldReturn? : Value → Option ℚ
  | .object fold =>
    match extractFloat py fold "test_return_pct", extractFloat py fold "out_of_sample_return_pct",
      get fold "test_metrics" with
    | some val, _, _ => some val
    | none, some val, _ => some val
    | none, none, .object metrics => extractFloat py metrics "percentage_return"
    | none, none, _ => none
  | _ => none

/-- `_extract_fold_returns`.  A fold without a return is passed over. -/
def extractFoldReturns (run : Option Data) : Option (List ℚ) :=
  if present run then do
    let summary ← summaryOf run
    let foldResults ← iterateFirst
      [get summary "fold_results", get summary "folds", get (run.getD []) "folds"]
    some (foldResults.filterMap (foldReturn? py))
  else some []

/-- `_extract_trade_count`: the round trips, or else all trades. -/
def extractTradeCount (btMetrics : Data) : ℤ :=
  let roundTrips :=
    (extractNestedFloat py btMetrics "round_trips" ("behavior", "round_trips")).getD 0
  if roundTrips ≠ 0 then truncate roundTrips
  else truncate ((extractFloat py btMetrics "total_trades").getD 0)

/-- `_extract_oos_window_counts`: all windows, and the profitable ones. -/
def extractOosWindowCounts (evidence : CollectedEvidence) : Option (ℤ × ℤ) := do
  let summary ← summaryOf evidence.candidateWfRun
  let oosWindows := truncate ((extractFloat py summary "total_folds").getD 0)
  let profitableWindows := truncate ((extractFloat py summary "profitable_folds").getD 0)
  if oosWindows = 0 && present evidence.candidateWfRun then
    let folds ← iterateFirst [get (evidence.candidateWfRun.getD []) "folds"]
    some (folds.length, profitableWindows)
  else some (oosWindows, profitableWindows)

/-- `_extract_paired_fold_diffs`: fold by fold, or else against the average of the baseline. -/
def extractPairedFoldDiffs (evidence : CollectedEvidence) : Option (List ℚ) := do
  let bFolds ← extractFoldReturns py evidence.baselineWfRun
  let cFolds ← extractFoldReturns py evidence.candidateWfRun
  if bFolds ≠ [] ∧ cFolds ≠ [] ∧ bFolds.length = cFolds.length then
    some (bFolds.zipWith (fun b c => roundTo 4 (c - b)) cFolds)
  else if 2 ≤ cFolds.length then
    let summary ← summaryOf evidence.baselineWfRun
    let average := (extractFloat py summary "aggregate_oos_return_pct").getD 0
    let perFoldBase := average / cFolds.length
    some (cFolds.map fun c => roundTo 4 (c - perFoldBase))
  else some []

/-- The mean, and the variance of a sample. -/
def mean (values : List ℚ) : ℚ := values.sum / values.length

def sampleVariance (values : List ℚ) : ℚ :=
  (values.map fun x => (x - mean values) ^ 2).sum / (values.length - 1)

/-- `_compute_fold_return_std`. -/
def computeFoldReturnStd (evidence : CollectedEvidence) : Option (Option ℚ) := do
  let cFolds ← extractFoldReturns py evidence.candidateWfRun
  if cFolds.length < 2 then some none else some (some (py.sqrt (sampleVariance cFolds)))

/-- The difference of two times, in days; a naive and an aware one have none. -/
def daysBetween : Datetime → Datetime → Option ℚ
  | .naive start, .naive stop => some ((stop - start) / 86400000000)
  | .aware start, .aware stop => some ((stop - start) / 86400000000)
  | _, _ => none

/-- `_compute_duration_days`. -/
def computeDurationDays (evidence : CollectedEvidence) : Option ℚ :=
  let span (startTime endTime : Datetime) : Option ℚ :=
    (daysBetween startTime endTime).map fun days => roundTo 2 (max days 0)
  match evidence.evaluationPeriod with
  | some ⟨some startTime, some endTime⟩ => span startTime endTime
  | _ =>
    match evidence.baselineSession.map fun session =>
      (session.request.startTime, session.request.endTime) with
    | some (some startTime, some endTime) => span startTime endTime
    | _ => some 0

/-- The regimes of one `regime_attribution` under which there were trades. -/
def regimesOf (btMetrics : Data) : Option (List String) := do
  let regimes ← getDict btMetrics "regime_attribution"
  let covered ← regimes.filterM fun (name, metrics) =>
    match metrics with
    | .object metrics =>
      if name = "" || "day_".isPrefixOf name then some false
      else (intOrZero py (get metrics "total_trades")).map fun trades => 0 < trades
    | _ => some false
  some (covered.map Prod.fst)

/-- `_extract_covered_regimes`. -/
def extractCoveredRegimes (bBt cBt : Data) : Option (List String) := do
  let bRegimes ← regimesOf py bBt
  let cRegimes ← regimesOf py cBt
  some ((bRegimes ++ cRegimes).dedup.insertionSort fun a b => a ≤ b)

/-- The drawdown limit of a configuration, if it has one that can be read. -/
def configuredLimit (config : Option Data) : Option (Option ℚ) :=
  match config with
  | some config =>
    (getDict config "portfolio").map fun portfolio => extractFloat py portfolio "max_drawdown_pct"
  | none => some none

/-- `_resolve_max_drawdown_limit`. -/
def resolveMaxDrawdownLimit (evidence : CollectedEvidence) : Option ℚ := do
  match ← configuredLimit py evidence.candidateConfig with
  | some limit => some limit
  | none =>
    match ← configuredLimit py evidence.baselineConfig with
    | some limit => some limit
    | none => some 25

end CryptoTrading.Proposals
