import CryptoTrading.Activity.AssetActivityTracker

/-!
# The starvation watchdog

Embeds `src/agent/monitoring/starvation_watchdog.py` on the activity tracker.  The watchdog checks
one asset after the other, again and again, while events come in.  It publishes an anomaly when it
finds an asset starved, and not again before it has found it active.

`anomalies_run` says what is published over any run in terms of the events alone.  What was found
is kept by ticker symbol, so assets of one symbol on several exchanges share it.

Left out: the thread with its waits, and the text of a time.
-/

namespace CryptoTrading.Activity

open CryptoTrading.Lib

/-! ## §1 Starvation -/

inductive AssetSchedule where
  | everySecond | everyMinute | everyHour | everyDay | everyWeek | everyMonth
  deriving DecidableEq

/-- `SCHEDULE_SECONDS`. -/
def AssetSchedule.seconds : AssetSchedule → ℚ
  | .everySecond => 1
  | .everyMinute => 60
  | .everyHour => 3600
  | .everyDay => 86400
  | .everyWeek => 604800
  | .everyMonth => 2592000

/-- What the watchdog reads of an asset.  A schedule may be missing or unknown. -/
structure WatchedAsset where
  tickerSymbol : String
  schedule : Option AssetSchedule
  enabled : Bool
  deriving DecidableEq

inductive AnomalyKind where
  | noMarketData | noStrategyActivity | noSignals | noOrders | noExecutions
  deriving DecidableEq

def AnomalyKind.text : AnomalyKind → String
  | .noMarketData => "NO_MARKET_DATA"
  | .noStrategyActivity => "NO_STRATEGY_ACTIVITY"
  | .noSignals => "NO_SIGNALS"
  | .noOrders => "NO_ORDERS"
  | .noExecutions => "NO_EXECUTIONS"

structure TradingActivityAnomaly where
  anomalyKind : AnomalyKind
  activityState : Option AssetActivityState
  threshold : ℚ
  detectedAt : ℚ
  deriving DecidableEq

structure WatchdogSettings where
  missedIntervalsThreshold : ℚ
  gracePeriodSeconds : ℚ
  fallbackThresholdSeconds : ℚ
  /-- When the tracker and when the watchdog was made. -/
  trackerStartedAt : ℚ
  watchdogStartedAt : ℚ

/-- `_stale`. -/
def stale (value : Option ℚ) (now threshold : ℚ) : Bool :=
  match value with
  | none => true
  | some value => decide (now - value > threshold)

/-- `now - last > threshold`, where a missing time counts as the baseline. -/
def overdue (value : Option ℚ) (base now threshold : ℚ) : Bool :=
  decide (now - value.getD base > threshold)

/-- The part of `_classify` after the market data and the evaluations. -/
def classifyOutputs (state : AssetActivityState) (base now threshold : ℚ) : Option AnomalyKind :=
  if overdue state.lastSignalAt base now threshold then some .noSignals
  else if state.lastSignalAt.isSome && overdue state.lastOrderAt base now threshold then
    some .noOrders
  else if state.lastOrderAt.isSome && overdue state.lastExecutionAt base now threshold then
    some .noExecutions
  else none

/-- `_classify`.  An asset whose market data or evaluations are missing, but not overdue, is not
    looked at any further. -/
def classify (state : Option AssetActivityState) (now threshold base : ℚ) : Option AnomalyKind :=
  match state with
  | none => if overdue none base now threshold then some .noMarketData else none
  | some state =>
    if stale state.lastMarketDataAt now threshold then
      if overdue state.lastMarketDataAt base now threshold then some .noMarketData else none
    else if stale state.lastEvaluationAt now threshold then
      if overdue state.lastEvaluationAt base now threshold then some .noStrategyActivity else none
    else classifyOutputs state base now threshold

namespace WatchdogSettings

variable (w : WatchdogSettings)

/-- `_baseline`. -/
def baseline : ℚ := max w.trackerStartedAt w.watchdogStartedAt

/-- `_threshold_for`. -/
def thresholdFor (asset : WatchedAsset) : ℚ :=
  let expected := match asset.schedule with
    | some schedule => schedule.seconds
    | none => w.fallbackThresholdSeconds
  expected * w.missedIntervalsThreshold + w.gracePeriodSeconds

/-- The anomaly that `_check_asset` finds in a state, published or not. -/
def anomaly (asset : WatchedAsset) (state : Option AssetActivityState) (now : ℚ) :
    Option TradingActivityAnomaly :=
  (classify state now (w.thresholdFor asset) w.baseline).map
    (⟨·, state, w.thresholdFor asset, now⟩)

end WatchdogSettings

/-! ## §2 The watchdog at work -/

structure WatchState where
  states : ActivityStates
  triggered : Finset String
  published : List (String × TradingActivityAnomaly)

inductive WatchAction where
  | activity (event : ActivityEvent)
  /-- One round of the loop in `run_once`. -/
  | check (asset : WatchedAsset) (now : ℚ)

namespace WatchState

def start : WatchState := ⟨Dict.empty, ∅, []⟩

/-- `_check_asset`. -/
def checkAsset (w : WatchdogSettings) (s : WatchState) (asset : WatchedAsset) (now : ℚ) :
    WatchState :=
  let ticker := asset.tickerSymbol
  match w.anomaly asset (stateFor s.states ticker) now with
  | some anomaly =>
    if ticker ∈ s.triggered then s
    else
      { s with
        triggered := insert ticker s.triggered
        published := s.published ++ [(ticker, anomaly)] }
  | none =>
    if ticker ∈ s.triggered then { s with triggered := s.triggered.erase ticker } else s

def step (w : WatchdogSettings) (s : WatchState) : WatchAction → WatchState
  | .activity event => { s with states := onEvent s.states event }
  | .check asset now => if asset.enabled then s.checkAsset w asset now else s

end WatchState

/-! ## §3 What is published -/

/-- The activity events of a run. -/
def activityIn (as : List WatchAction) : List ActivityEvent :=
  as.filterMap fun
    | .activity event => some event
    | .check _ _ => none

/-- What a check finds in the activity before it, if it is one of an asset that is enabled. -/
def findingAfter (w : WatchdogSettings) (before : List WatchAction) :
    WatchAction → Option (String × Option TradingActivityAnomaly)
  | .activity _ => none
  | .check asset now =>
    if asset.enabled then
      some (asset.tickerSymbol,
        w.anomaly asset (activityOf asset.tickerSymbol (activityIn before)) now)
    else none

/-- What the checks of a run find, one after the other. -/
def findings (w : WatchdogSettings) (as : List WatchAction) :
    List (String × Option TradingActivityAnomaly) :=
  outputs (findingAfter w) [] as

theorem activityIn_concat (as : List WatchAction) (a : WatchAction) :
    activityIn (as ++ [a]) = activityIn as ++ activityIn [a] := by
  simp [activityIn]

/-- A check is one of alarms: what it does depends on its finding only. -/
theorem checkAsset_eq_check (w : WatchdogSettings) (s : WatchState) (asset : WatchedAsset)
    (now : ℚ) :
    let alarms := Alarms.check ⟨s.triggered, s.published⟩
      (asset.tickerSymbol, w.anomaly asset (stateFor s.states asset.tickerSymbol) now)
    s.checkAsset w asset now = ⟨s.states, alarms.on, alarms.given⟩ := by
  simp only [WatchState.checkAsset]
  generalize w.anomaly asset (stateFor s.states asset.tickerSymbol) now = found
  unfold Alarms.check
  cases found with
  | none =>
    by_cases hon : asset.tickerSymbol ∈ s.triggered
    · simp [hon]
    · simp [hon]
  | some anomaly =>
    by_cases hon : asset.tickerSymbol ∈ s.triggered
    · simp [hon]
    · simp [hon]

/-- The watchdog works on what the events say and on the alarms of what it finds. -/
theorem watch_run (w : WatchdogSettings) (as : List WatchAction) :
    (run (WatchState.step w) .start as).states = run onEvent Dict.empty (activityIn as) ∧
      (⟨(run (WatchState.step w) .start as).triggered,
        (run (WatchState.step w) .start as).published⟩ : Alarms String TradingActivityAnomaly) =
          run Alarms.check ⟨∅, []⟩ (findings w as) := by
  induction as using List.reverseRecOn with
  | nil => exact ⟨rfl, rfl⟩
  | append_singleton as a ih =>
    obtain ⟨hstates, halarms⟩ := ih
    rw [run_concat, activityIn_concat, findings, outputs_concat, List.nil_append, run_append,
      run_append, ← hstates, ← findings, ← halarms]
    set s := run (WatchState.step w) .start as
    cases a with
    | activity event => exact ⟨rfl, rfl⟩
    | check asset now =>
      by_cases henabled : asset.enabled = true
      · have hfinding : findingAfter w as (.check asset now) = some (asset.tickerSymbol,
            w.anomaly asset (stateFor s.states asset.tickerSymbol) now) := by
          rw [findingAfter, if_pos henabled, hstates, states_run]
        have hstep : s.step w (.check asset now) = s.checkAsset w asset now := if_pos henabled
        rw [hstep, checkAsset_eq_check, hfinding]
        exact ⟨rfl, rfl⟩
      · have hfinding : findingAfter w as (.check asset now) = none := if_neg henabled
        have hstep : s.step w (.check asset now) = s := if_neg henabled
        rw [hstep, hfinding]
        exact ⟨rfl, rfl⟩

/-- **Over any run of events and checks, an anomaly is published for each check that finds one in
    the latest times of its asset when the last check of that symbol found none, and for no
    other.** -/
theorem anomalies_run (w : WatchdogSettings) (as : List WatchAction) :
    (run (WatchState.step w) .start as).published = outputs alarmFor [] (findings w as) := by
  have halarms := congrArg Alarms.given (watch_run w as).2
  rw [(alarms_run (findings w as)).2] at halarms
  exact halarms

end CryptoTrading.Activity
