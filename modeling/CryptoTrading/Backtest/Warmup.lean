import CryptoTrading.Api.MarketData
import CryptoTrading.Backtest.Results
import CryptoTrading.Backtest.Runner

/-!
# The warm-up of a backtest

Embeds `src/backtest/data/csv_backtest_data_source.py` (`load`, on the rows of the data file), the
observations, candles and snapshots of `backtest_simulator.py`, the store of candles of
`src/trading/markets/market_data_manager.py` with `_handle_candles` of
`backtest_rest_service.py`, `backtest_result_collector.py`, and the period that
`analysis/metrics_calculator.py` reports.

It extends the ticks of `Backtest.Runner`: what the strategies decide may depend on what they are
given at the tick (`StrategyInput`), and the orders, fills and funds are those of `simulatorStep`
(`state_step`).  Request times are whole seconds.

Ticks before the start time are left out of trading but not of the reported market series.  The
candles that the simulator hands out go back to the warm-up start; those of the manager's store,
which the strategies read, are the latest 300.
-/

namespace CryptoTrading.Backtest

open CryptoTrading.Lib CryptoTrading.Orders CryptoTrading.Session

/-! ## §1 Data and requests -/

/-- `HistoricalDataPoint`, with what observations and candles are made of. -/
structure MarketDataPoint extends HistoricalDataPoint where
  openPrice : ℚ
  highPrice : ℚ
  lowPrice : ℚ
  volume : ℚ
  marketCap : ℚ
  deriving DecidableEq

namespace MarketDataPoint

/-- `BacktestSimulator._to_market_data`. -/
def toMarketData (p : MarketDataPoint) : MarketData where
  volume := p.volume
  highPrice := p.highPrice
  lowPrice := p.lowPrice
  closePrice := p.closePrice
  timestamp := p.timestamp
  bidPrice := none
  askPrice := none

/-- `BacktestSimulator._to_candle`. -/
def toCandle (p : MarketDataPoint) : Candle where
  «open» := p.openPrice
  low := p.lowPrice
  high := p.highPrice
  close := p.closePrice
  startTime := p.timestamp
  volume := 0

end MarketDataPoint

/-- `BacktestDataSet`, with its whole data points. -/
structure MarketDataSet where
  points : List MarketDataPoint
  ordered : points.Pairwise fun p q => p.timestamp < q.timestamp

inductive LoadError where
  | noHistoricalData
  | notOrdered
  | duplicateTimestamps
  deriving DecidableEq

namespace MarketDataSet

/-- `BacktestDataSet.__post_init__`. -/
def ofPoints (points : List MarketDataPoint) : Except LoadError MarketDataSet :=
  if hle : points.Pairwise fun p q => p.timestamp ≤ q.timestamp then
    if hne : points.Pairwise fun p q => p.timestamp ≠ q.timestamp then
      .ok ⟨points, (hle.and hne).imp fun h => lt_of_le_of_ne h.1 h.2⟩
    else .error .duplicateTimestamps
  else .error .notOrdered

/-- What the execution engine reads of the points. -/
def toDataSet (dataset : MarketDataSet) : BacktestDataSet where
  dataPoints := dataset.points.map (·.toHistoricalDataPoint)
  ordered := by
    rw [List.map_map]
    exact List.pairwise_map.mpr dataset.ordered

/-- `BacktestDataSet.get`. -/
def get (dataset : MarketDataSet) (timestamp : ℤ) : Option MarketDataPoint :=
  dataset.points.find? fun point => point.timestamp = timestamp

end MarketDataSet

/-- A request with its period, and the rows of its data file. -/
structure PeriodRequest where
  sessionId : String
  asset : Asset
  rows : List MarketDataPoint
  startTime : Option ℤ
  endTime : Option ℤ
  warmupStartTime : Option ℤ
  initialBalance : ℚ
  execution : ExecutionModel

namespace PeriodRequest

/-- Keep what satisfies a condition on a time, if there is one. -/
def filterFrom (time : Option ℤ) (keep : ℤ → MarketDataPoint → Bool)
    (points : List MarketDataPoint) : List MarketDataPoint :=
  match time with
  | some epoch => points.filter (keep epoch)
  | none => points

/-- `CsvBacktestDataSource.load`, on the rows that the loader has sorted. -/
def load (r : PeriodRequest) : Except LoadError MarketDataSet :=
  let dataPoints := r.rows.insertionSort fun p q => p.timestamp ≤ q.timestamp
  let filterStart := r.warmupStartTime.or r.startTime
  let dataPoints := filterFrom filterStart (fun epoch p => epoch ≤ p.timestamp) dataPoints
  let dataPoints := filterFrom r.endTime (fun epoch p => p.timestamp ≤ epoch) dataPoints
  if dataPoints.isEmpty then .error .noHistoricalData else MarketDataSet.ofPoints dataPoints

/-- The request with its loaded data; a warm-up is cut off at the start time. -/
def toRequest (r : PeriodRequest) (dataset : MarketDataSet) : BacktestRequest where
  sessionId := r.sessionId
  asset := r.asset
  dataset := dataset.toDataSet
  initialBalance := r.initialBalance
  execution := r.execution
  warmupCutoff := r.warmupStartTime.bind fun _ => r.startTime

end PeriodRequest

/-! ## §2 The store of candles -/

/-- `MarketDataManager.MAX_CANDLES`. -/
def maxCandles : ℕ := 300

/-- The last entries of a list. -/
def keepLast {α : Type} (n : ℕ) (xs : List α) : List α := xs.drop (xs.length - n)

/-- `MarketDataManager._update_candles`. -/
def updateCandles (candles newCandles : List Candle) : List Candle :=
  keepLast maxCandles ((candles ++ newCandles).insertionSort fun c d => c.startTime ≤ d.startTime)

/-- `BacktestRestService.DEFAULT_CANDLES_LIMIT`. -/
def defaultCandlesLimit : ℕ := 300

/-- `BacktestRestService._handle_candles` at a time. -/
def handleCandles (dataset : MarketDataSet) (current : ℤ) : List Candle :=
  let idx := (dataset.points.takeWhile fun p => p.timestamp ≤ current).length
  ((dataset.points.take idx).drop (idx - defaultCandlesLimit)).map (·.toCandle)

/-- `MarketDataManager.get_candles`: an empty store is filled first. -/
def getCandles (dataset : MarketDataSet) (current : ℤ) (candles : List Candle) : List Candle :=
  if candles.length > 0 then candles else updateCandles candles (handleCandles dataset current)

/-! ## §3 The result collector -/

structure BacktestResultCollector where
  marketSeries : List MarketData
  snapshots : List PortfolioSnapshot
  orders : List Order
  fills : List BacktestFill

namespace BacktestResultCollector

def empty : BacktestResultCollector := ⟨[], [], [], []⟩

def onMarketData (c : BacktestResultCollector) (data : MarketData) : BacktestResultCollector :=
  { c with marketSeries := c.marketSeries ++ [data] }

def onSnapshot (c : BacktestResultCollector) (snapshot : PortfolioSnapshot) :
    BacktestResultCollector :=
  { c with snapshots := c.snapshots ++ [snapshot] }

/-- `BacktestResultCollector._to_fill`. -/
def toFill (result : ExecutionResult) : BacktestFill where
  orderUuid := result.orderUuid
  tickerSymbol := result.tickerSymbol
  tradeAction := result.tradeAction
  requestedPrice := result.requestedPrice
  marketPrice := result.marketPrice
  executionPrice := result.executionPrice
  quantity := result.executedQuantity
  fee := result.fee
  slippagePerUnit := result.slippagePerUnit
  slippageCost := result.slippageCost
  submittedAt := result.submittedAt
  executedAt := result.executedAt

/-- `_on_order_submitted` and `_on_fill`; it does not listen to cancellations. -/
def onEngineEvent (c : BacktestResultCollector) : EngineEvent → BacktestResultCollector
  | .orderSubmitted order => { c with orders := c.orders ++ [order] }
  | .orderFilled _ execution => { c with fills := c.fills ++ [toFill execution] }
  | .orderCancelled _ => c

/-- `_timestamp_to_datetime`, in seconds. -/
def timestampToDatetime (timestamp : ℚ) : ℚ :=
  if timestamp > 100000000000 then timestamp / 1000 else timestamp

/-- `data_points` of `BacktestMetricsCalculator.calculate`. -/
def dataPoints (c : BacktestResultCollector) : ℕ := c.marketSeries.length

/-- `start_time`. -/
def startTime (c : BacktestResultCollector) : Option ℚ :=
  match c.marketSeries.head? with
  | some data => some (timestampToDatetime data.timestamp)
  | none => c.snapshots.head?.map fun snapshot => timestampToDatetime snapshot.timestamp

/-- `end_time`. -/
def endTime (c : BacktestResultCollector) : Option ℚ :=
  match c.marketSeries.getLast? with
  | some data => some (timestampToDatetime data.timestamp)
  | none => c.snapshots.getLast?.map fun snapshot => timestampToDatetime snapshot.timestamp

end BacktestResultCollector

/-! ## §4 The simulator -/

/-- What the strategies are given at a tick: `callbackCandles` by the simulator, `candles` by the
    manager, whose store the trading executor reads. -/
structure StrategyInput where
  timestamp : ℤ
  marketData : Option MarketData
  callbackCandles : List Candle
  candles : List Candle

/-- The run of a session: the state of the runner, the simulator's candles of the symbol, the
    manager's store of them, and the collector. -/
structure Simulation where
  state : BacktestState
  dataset : MarketDataSet
  candles : List Candle
  storedCandles : List Candle
  collector : BacktestResultCollector

namespace Simulation

/-- The head of `BacktestSimulator.step`: the observation and the candle are published. -/
def observe (s : Simulation) (timestamp : ℤ) : Simulation :=
  match s.dataset.get timestamp with
  | none => s
  | some point =>
    { s with
      candles := s.candles ++ [point.toCandle]
      storedCandles := updateCandles s.storedCandles [point.toCandle]
      collector := s.collector.onMarketData point.toMarketData }

def input (s : Simulation) (timestamp : ℤ) : StrategyInput where
  timestamp := timestamp
  marketData := (s.dataset.get timestamp).map (·.toMarketData)
  callbackCandles := s.candles
  candles := getCandles s.dataset timestamp s.storedCandles

/-- What the strategies are given at a tick; nothing in the warm-up. -/
def consults (s : Simulation) (timestamp : ℤ) : Option StrategyInput :=
  if isWarmup s.state timestamp then none else some ((s.observe timestamp).input timestamp)

/-- `BacktestSimulator._snapshot`. -/
def snapshot (s : Simulation) (asset : Asset) (timestamp : ℤ) : PortfolioSnapshot :=
  let account := s.state.engine.account
  let close := ((s.dataset.get timestamp).map (·.closePrice)).getD 0
  { timestamp := timestamp
    cash := account.balanceUsd
    positions := account.positions
    equity := account.balanceUsd + account.positions.getD asset.tickerSymbol 0 * close }

end Simulation

section Simulator

variable (newUuid : ℕ → String)

/-- The order that `openRequest` places. -/
def placedOrder (asset : Asset) (timestamp : ℤ) (s : BacktestState) (request : OrderRequest) :
    Order :=
  let order : Order :=
    { Order.new (newUuid s.issued) asset.exchange asset.tickerSymbol request.price request.quantity
        request.tradeAction timestamp with
      commitHash := request.commitHash
      winningStrategy := request.winningStrategy
      strategyVotes := request.strategyVotes
      strategyAttributions := request.strategyAttributions
      decisionId := request.decisionId
      regime := request.regime }
  s.orderManager.sessionManager.fillCommitHash (s.orderManager.openedOrder order)

/-- What the engine publishes while the orders of a tick are opened. -/
def openingEvents (asset : Asset) (timestamp : ℤ) (s : BacktestState) :
    List OrderRequest → List EngineEvent
  | [] => []
  | request :: rest =>
    (s.engine.createOrder (placedOrder newUuid asset timestamp s request)).2 ++
      openingEvents asset timestamp (openRequest newUuid asset timestamp s request) rest

/-- What the engine publishes at a tick after the warm-up. -/
def tickEvents (trade : BacktestState → Asset → ℤ → List OrderRequest) (asset : Asset)
    (s : BacktestState) (timestamp : ℤ) : List EngineEvent :=
  let (engine, events) := s.engine.process asset.tickerSymbol timestamp
  let s := handleEvents { s with engine := engine } events
  events ++ openingEvents newUuid asset timestamp s (trade s asset timestamp)

variable (strategies : BacktestState → Asset → StrategyInput → List OrderRequest)

/-- `BacktestSimulator.step`, with all that it publishes. -/
def Simulation.step (asset : Asset) (s : Simulation) (timestamp : ℤ) : Simulation :=
  let s := s.observe timestamp
  if isWarmup s.state timestamp then s
  else
    let input := s.input timestamp
    let trade := fun state asset _ => strategies state asset input
    let events := tickEvents newUuid trade asset s.state timestamp
    let s := { s with
      state := simulatorStep newUuid trade asset s.state timestamp
      storedCandles := input.candles
      collector := events.foldl BacktestResultCollector.onEngineEvent s.collector }
    { s with collector := s.collector.onSnapshot (s.snapshot asset timestamp) }

/-- A session that has started: the manager has asked for the candles at the first tick. -/
def Simulation.start (state : BacktestState) (dataset : MarketDataSet) : Simulation where
  state := state
  dataset := dataset
  candles := []
  storedCandles := match dataset.points.head? with
    | some point => updateCandles [] (handleCandles dataset point.timestamp)
    | none => []
  collector := .empty

inductive RunError where
  | load (error : LoadError)
  | session
  deriving DecidableEq

/-- The session that `run_one` starts on its loaded data. -/
def startOne (database : Database) (appSession : TradingSession) (headCommitHash : Option String)
    (r : PeriodRequest) (dataset : MarketDataSet) : Option Simulation :=
  let request := r.toRequest dataset
  let state := BacktestState.start database appSession headCommitHash request [request]
  (startSession state request).map (Simulation.start · dataset)

/-- The ticks of the session. -/
def Simulation.ticks (s : Simulation) (r : PeriodRequest) : List ℤ :=
  Backtest.ticks s.state (asBacktestAsset r.asset).tickerSymbol

/-- `BacktestRunner.run_one`, up to the last tick. -/
def PeriodRequest.runOne (database : Database) (appSession : TradingSession)
    (headCommitHash : Option String)
    (r : PeriodRequest) : Except RunError Simulation :=
  match r.load with
  | .error e => .error (.load e)
  | .ok dataset =>
    match startOne database appSession headCommitHash r dataset with
    | none => .error .session
    | some started =>
      .ok (run (Simulation.step newUuid strategies (asBacktestAsset r.asset)) started
        (started.ticks r))

end Simulator

/-! ## §5 What has been read -/

section Proofs

variable {newUuid : ℕ → String}
  {strategies : BacktestState → Asset → StrategyInput → List OrderRequest}

theorem keepLast_append {α : Type} (n : ℕ) (xs : List α) (x : α) :
    keepLast n (keepLast n xs ++ [x]) = keepLast n (xs ++ [x]) := by
  unfold keepLast
  simp only [List.drop_append, List.length_append, List.length_drop, List.drop_drop]
  congr 2
  all_goals simp only [List.length_singleton]
  · omega
  · omega

/-- A later candle joins a store that is in order. -/
theorem updateCandles_keepLast {candles : List Candle} {candle : Candle}
    (h : (candles ++ [candle]).Pairwise fun c d => c.startTime ≤ d.startTime) :
    updateCandles (keepLast maxCandles candles) [candle] =
      keepLast maxCandles (candles ++ [candle]) := by
  have hsub : (keepLast maxCandles candles ++ [candle]).Sublist (candles ++ [candle]) :=
    (List.drop_sublist _ _).append_right _
  rw [updateCandles, (h.sublist hsub).insertionSort_eq, keepLast_append]

namespace MarketDataSet

theorem get_of_split {dataset : MarketDataSet} {read rest : List MarketDataPoint}
    {x : MarketDataPoint} (h : dataset.points = read ++ x :: rest) :
    dataset.get x.timestamp = some x := by
  refine List.find?_eq_some_iff_append.mpr ⟨decide_eq_true rfl, read, rest, h, fun p hp => ?_⟩
  have hordered := dataset.ordered
  rw [h, List.pairwise_append] at hordered
  simpa using ne_of_lt (hordered.2.2 p hp x List.mem_cons_self)

end MarketDataSet

theorem warmupCutoff_simulatorStep (trade : BacktestState → Asset → ℤ → List OrderRequest)
    (asset : Asset) (s : BacktestState) (timestamp : ℤ) :
    (simulatorStep newUuid trade asset s timestamp).warmupCutoff = s.warmupCutoff := by
  have hopen : ∀ (requests : List OrderRequest) (s : BacktestState),
      (requests.foldl (openRequest newUuid asset timestamp) s).warmupCutoff = s.warmupCutoff := by
    intro requests s
    induction requests generalizing s with
    | nil => rfl
    | cons request rest ih => exact ih (openRequest newUuid asset timestamp s request)
  have hpublish : ∀ (orders : List Order) (s : BacktestState),
      (orders.foldl publishFill s).warmupCutoff = s.warmupCutoff := by
    intro orders s
    induction orders generalizing s with
    | nil => rfl
    | cons order rest ih => exact ih (publishFill s order)
  unfold simulatorStep
  split
  · rfl
  · exact (hopen _ _).trans (hpublish _ _)

theorem marketSeries_foldl (events : List EngineEvent) (c : BacktestResultCollector) :
    (events.foldl BacktestResultCollector.onEngineEvent c).marketSeries = c.marketSeries := by
  refine run_invariant (fun c' : BacktestResultCollector => c'.marketSeries = c.marketSeries)
    (fun c' e h => ?_) rfl events
  cases e <;> exact h

/-- The simulation after the ticks of some data points. -/
structure HasRead (dataset : MarketDataSet) (cutoff : Option ℤ) (read : List MarketDataPoint)
    (s : Simulation) : Prop where
  dataset_eq : s.dataset = dataset
  cutoff_eq : s.state.warmupCutoff = cutoff
  candles_eq : s.candles = read.map (·.toCandle)
  /-- The first candle is there from the beginning, and comes again with its tick. -/
  stored_eq : s.storedCandles =
    keepLast maxCandles ((dataset.points.head?.toList ++ read).map (·.toCandle))
  series_eq : s.collector.marketSeries = read.map (·.toMarketData)

variable {dataset : MarketDataSet} {cutoff : Option ℤ} {read rest : List MarketDataPoint}
  {x : MarketDataPoint} {s : Simulation}

/-- The candles that are read are in order. -/
theorem pairwise_candles (h : dataset.points = read ++ x :: rest) :
    ((dataset.points.head?.toList ++ read).map (·.toCandle) ++ [x.toCandle]).Pairwise
      fun c d => c.startTime ≤ d.startTime := by
  have hordered : (read ++ [x]).Pairwise fun p q => p.timestamp < q.timestamp := by
    have hpoints := dataset.ordered
    rw [h, List.append_cons] at hpoints
    exact hpoints.sublist (List.sublist_append_left _ _)
  obtain ⟨first, later, hread⟩ := List.exists_cons_of_ne_nil (List.concat_ne_nil x read)
  have hhead : dataset.points.head? = some first := by
    rw [h, List.append_cons, hread]
    rfl
  have hall : (dataset.points.head?.toList ++ read).map (·.toCandle) ++ [x.toCandle] =
      (first :: first :: later).map (·.toCandle) := by
    rw [hhead, ← hread]
    simp
  rw [hread] at hordered
  rw [hall, List.pairwise_map]
  refine List.pairwise_cons.mpr ⟨fun p hp => ?_, hordered.imp fun hlt => ?_⟩
  · rcases List.mem_cons.mp hp with rfl | hp
    · exact le_rfl
    · exact Int.cast_le.mpr ((List.pairwise_cons.mp hordered).1 p hp).le
  · exact Int.cast_le.mpr hlt.le

theorem hasRead_observe (hsplit : dataset.points = read ++ x :: rest)
    (h : HasRead dataset cutoff read s) :
    HasRead dataset cutoff (read ++ [x]) (s.observe x.timestamp) := by
  have hget : s.dataset.get x.timestamp = some x := by
    rw [h.dataset_eq]
    exact MarketDataSet.get_of_split hsplit
  unfold Simulation.observe
  rw [hget]
  refine ⟨h.dataset_eq, h.cutoff_eq, ?_, ?_, ?_⟩
  · simp only [h.candles_eq, List.map_append, List.map_cons, List.map_nil]
  · simp only [h.stored_eq]
    rw [updateCandles_keepLast (pairwise_candles hsplit)]
    simp only [List.map_append, List.map_cons, List.map_nil, List.append_assoc]
  · simp only [BacktestResultCollector.onMarketData, h.series_eq, List.map_append, List.map_cons,
      List.map_nil]

/-- The store is not empty, and is not fetched again. -/
theorem getCandles_of_hasRead (h : HasRead dataset cutoff (read ++ [x]) s) (current : ℤ) :
    getCandles s.dataset current s.storedCandles = s.storedCandles := by
  refine if_pos ?_
  rw [h.stored_eq, keepLast, List.length_drop, List.map_append, List.length_append,
    List.map_append, List.length_append, List.map_cons, List.length_cons, maxCandles]
  omega

variable (newUuid strategies)

/-- **The funds and orders of a tick are those of the runner**, for an executor that decides on
    what it is given. -/
theorem state_step (asset : Asset) (s : Simulation) (timestamp : ℤ) :
    (s.step newUuid strategies asset timestamp).state =
      simulatorStep newUuid
        (fun state asset timestamp =>
          strategies state asset ((s.observe timestamp).input timestamp))
        asset s.state timestamp := by
  have hstate : (s.observe timestamp).state = s.state := by
    unfold Simulation.observe
    split <;> rfl
  unfold Simulation.step
  dsimp only
  split
  · rename_i hwarm
    rw [hstate] at hwarm ⊢
    rw [simulatorStep, if_pos hwarm]
  · rw [hstate]
    rfl

/-- A tick of the warm-up is observed, and that is all. -/
theorem step_warmup {asset : Asset} {s : Simulation} {timestamp : ℤ}
    (h : isWarmup (s.observe timestamp).state timestamp = true) :
    s.step newUuid strategies asset timestamp = s.observe timestamp := by
  unfold Simulation.step
  dsimp only
  rw [if_pos h]

theorem hasRead_step (asset : Asset) (hsplit : dataset.points = read ++ x :: rest)
    (h : HasRead dataset cutoff read s) :
    HasRead dataset cutoff (read ++ [x]) (s.step newUuid strategies asset x.timestamp) := by
  have hobserved := hasRead_observe hsplit h
  unfold Simulation.step
  dsimp only
  generalize s.observe x.timestamp = observed at hobserved
  split
  · exact hobserved
  · refine ⟨hobserved.dataset_eq, ?_, hobserved.candles_eq, ?_, ?_⟩
    · exact (warmupCutoff_simulatorStep _ _ _ _).trans hobserved.cutoff_eq
    · simp only [Simulation.input, getCandles_of_hasRead hobserved]
      exact hobserved.stored_eq
    · simp only [BacktestResultCollector.onSnapshot, marketSeries_foldl]
      exact hobserved.series_eq

variable {newUuid strategies}

theorem isWarmup_observe (hsplit : dataset.points = read ++ x :: rest) {start : ℤ}
    (h : HasRead dataset (some start) read s) :
    isWarmup (s.observe x.timestamp).state x.timestamp = true ↔ x.timestamp < start := by
  rw [isWarmup, (hasRead_observe hsplit h).cutoff_eq]
  exact decide_eq_true_iff

theorem hasRead_start {state : BacktestState} (hcutoff : state.warmupCutoff = cutoff) :
    HasRead dataset cutoff [] (Simulation.start state dataset) := by
  refine ⟨rfl, hcutoff, rfl, ?_, rfl⟩
  unfold Simulation.start
  dsimp only
  cases hpoints : dataset.points with
  | nil => rfl
  | cons first later =>
    -- before the first tick, the clock stands at the first one
    have hordered := dataset.ordered
    rw [hpoints] at hordered
    have hnone : later.takeWhile (fun p => decide (p.timestamp ≤ first.timestamp)) = [] := by
      cases later with
      | nil => rfl
      | cons second _ =>
        have hlt : first.timestamp < second.timestamp :=
          (List.pairwise_cons.mp hordered).1 second List.mem_cons_self
        exact List.takeWhile_cons_of_neg (by simpa using hlt)
    simp [handleCandles, hpoints, hnone, updateCandles, defaultCandlesLimit, keepLast, maxCandles]

/-! ## §6 Loading -/

theorem MarketDataSet.ofPoints_eq_ok {points : List MarketDataPoint}
    (h : MarketDataSet.ofPoints points = .ok dataset) : dataset.points = points := by
  unfold MarketDataSet.ofPoints at h
  split at h
  · split at h
    · rw [← Except.ok.inj h]
    · cases h
  · cases h

/-- The data set has the rows from the start of the warm-up to the end. -/
theorem load_eq_ok {r : PeriodRequest} {warmup stop : ℤ} (hwarmup : r.warmupStartTime = some warmup)
    (hstop : r.endTime = some stop) (h : r.load = .ok dataset) :
    dataset.points ≠ [] ∧ ∀ p, p ∈ dataset.points ↔
      p ∈ r.rows ∧ warmup ≤ p.timestamp ∧ p.timestamp ≤ stop := by
  unfold PeriodRequest.load at h
  simp only [hwarmup, hstop, Option.some_or, PeriodRequest.filterFrom] at h
  split at h
  · cases h
  · rename_i hnonempty
    rw [MarketDataSet.ofPoints_eq_ok h]
    refine ⟨fun hnil => hnonempty (by rw [hnil]; rfl), fun p => ?_⟩
    simp only [List.mem_filter, List.mem_insertionSort, decide_eq_true_eq, and_assoc]

/-- What has been read are the rows up to the tick. -/
theorem mem_read_iff {r : PeriodRequest} {warmup stop : ℤ}
    (hwarmup : r.warmupStartTime = some warmup) (hstop : r.endTime = some stop)
    (hload : r.load = .ok dataset) (hsplit : dataset.points = read ++ x :: rest)
    (p : MarketDataPoint) :
    p ∈ read ++ [x] ↔ p ∈ r.rows ∧ warmup ≤ p.timestamp ∧ p.timestamp ≤ x.timestamp := by
  have hmem := (load_eq_ok hwarmup hstop hload).2
  have hordered := dataset.ordered
  rw [hsplit, List.append_cons, List.pairwise_append, List.pairwise_append] at hordered
  obtain ⟨⟨-, -, hbefore⟩, -, hafter⟩ := hordered
  have hx : x.timestamp ≤ stop := ((hmem x).mp (by rw [hsplit]; simp)).2.2
  constructor
  · intro hp
    have hpoint : p ∈ dataset.points := by
      rw [hsplit, List.append_cons]
      exact List.mem_append_left _ hp
    refine ⟨((hmem p).mp hpoint).1, ((hmem p).mp hpoint).2.1, ?_⟩
    rcases List.mem_append.mp hp with hread | hlast
    · exact (hbefore p hread x List.mem_cons_self).le
    · rw [List.mem_singleton.mp hlast]
  · rintro ⟨hrow, hfrom, hto⟩
    have hpoint : p ∈ dataset.points := (hmem p).mpr ⟨hrow, hfrom, hto.trans hx⟩
    rw [hsplit, List.append_cons] at hpoint
    refine (List.mem_append.mp hpoint).resolve_right fun hlater => ?_
    exact absurd (hafter x (List.mem_append_right _ List.mem_cons_self) p hlater) (not_lt.mpr hto)

/-- The session starts, at the first tick of its data. -/
theorem startOne_eq (database : Database) (appSession : TradingSession)
    (headCommitHash : Option String) (r : PeriodRequest) (dataset : MarketDataSet) :
    ∃ started, startOne database appSession headCommitHash r dataset = some started ∧
      started.ticks r = dataset.points.map (·.timestamp) ∧
      HasRead dataset (r.toRequest dataset).warmupCutoff [] started := by
  have hordered : (dataset.points.map (·.timestamp)).Pairwise (· ≤ ·) :=
    List.pairwise_map.mpr (dataset.ordered.imp le_of_lt)
  unfold startOne
  dsimp only
  rw [startSession_of_startable (fun _ => rfl), Option.map_some]
  refine ⟨_, rfl, ?_, hasRead_start rfl⟩
  have htimestamps : dataset.toDataSet.timestamps = dataset.points.map (·.timestamp) :=
    List.map_map
  simp only [Simulation.ticks, Backtest.ticks, Simulation.start, BacktestState.start,
    BacktestClock.new, List.foldl_cons, List.foldl_nil, Dict.getD, Dict.get?_mapValues]
  rw [BacktestRequest.tickerSymbol, PeriodRequest.toRequest, Dict.get?_set_self]
  simp only [Option.map_some, Option.getD_some, htimestamps]
  exact hordered.insertionSort_eq

theorem length_points {r : PeriodRequest} {warmup stop : ℤ}
    (hwarmup : r.warmupStartTime = some warmup) (hstop : r.endTime = some stop)
    (h : r.load = .ok dataset) :
    dataset.points.length =
      r.rows.countP fun p => decide (p.timestamp ≤ stop) && decide (warmup ≤ p.timestamp) := by
  unfold PeriodRequest.load at h
  simp only [hwarmup, hstop, Option.some_or, PeriodRequest.filterFrom] at h
  split at h
  · cases h
  · rw [MarketDataSet.ofPoints_eq_ok h, List.filter_filter, ← List.countP_eq_length_filter]
    exact (List.perm_insertionSort _ r.rows).countP_eq _

variable (newUuid strategies) in
theorem PeriodRequest.runOne_eq {database : Database} {appSession : TradingSession}
    {headCommitHash : Option String} {r : PeriodRequest} (hload : r.load = .ok dataset)
    {started : Simulation}
    (hstarted : startOne database appSession headCommitHash r dataset = some started) :
    PeriodRequest.runOne newUuid strategies database appSession headCommitHash r =
      .ok (run (Simulation.step newUuid strategies (asBacktestAsset r.asset)) started
        (started.ticks r)) := by
  unfold PeriodRequest.runOne
  simp only [hload, hstarted]

/-! ## §7 The evaluated period -/

/-- No order is submitted or filled, and no snapshot is taken. -/
structure Untraded (s s' : Simulation) : Prop where
  state_eq : s'.state = s.state
  orders_eq : s'.collector.orders = s.collector.orders
  fills_eq : s'.collector.fills = s.collector.fills
  snapshots_eq : s'.collector.snapshots = s.collector.snapshots

theorem untraded_observe (s : Simulation) (timestamp : ℤ) : Untraded s (s.observe timestamp) := by
  unfold Simulation.observe
  split <;> exact ⟨rfl, rfl, rfl, rfl⟩

/-- The candles of the ticks from the start of the warm-up up to a tick. -/
def CandlesUpTo (r : PeriodRequest) (warmup timestamp : ℤ) (candles : List Candle) : Prop :=
  ∀ c, c ∈ candles ↔
    ∃ p ∈ r.rows, warmup ≤ p.timestamp ∧ p.timestamp ≤ timestamp ∧ p.toCandle = c

/-- The data points of the period that is evaluated. -/
def MarketDataSet.evaluated (dataset : MarketDataSet) (start stop : ℤ) : List MarketDataPoint :=
  dataset.points.filter fun p => start ≤ p.timestamp ∧ p.timestamp ≤ stop

variable (newUuid strategies) in
/-- The warm-up stays out of the period that is evaluated, in the run from `started`: the
    strategies see the candles from the start of the warm-up in their `view`, and all else is
    about the ticks from the start to the end. -/
structure WarmupStaysOut (view : StrategyInput → List Candle) (r : PeriodRequest)
    (warmup start stop : ℤ) (dataset : MarketDataSet) (started : Simulation)
    (result : BacktestResultCollector) : Prop where
  untraded : Along (Simulation.step newUuid strategies (asBacktestAsset r.asset))
    (fun s timestamp => timestamp < start →
      Untraded s (s.step newUuid strategies (asBacktestAsset r.asset) timestamp))
    started (started.ticks r)
  sees : Along (Simulation.step newUuid strategies (asBacktestAsset r.asset))
    (fun s timestamp => start ≤ timestamp → ∃ input, s.consults timestamp = some input ∧
      CandlesUpTo r warmup timestamp (view input))
    started (started.ticks r)
  market_series : result.marketSeries = (dataset.evaluated start stop).map (·.toMarketData)
  data_points : result.dataPoints = (dataset.evaluated start stop).length
  start_time : result.startTime = (dataset.evaluated start stop).head?.map (·.timestamp)
  end_time : result.endTime = (dataset.evaluated start stop).getLast?.map (·.timestamp)

/-- A window that begins with an entry doubled has all entries as long as they fit. -/
theorem mem_keepLast_cons_iff {α : Type} {n : ℕ} {first : α} {later : List α}
    (hnew : first ∉ later) :
    (∀ c, c ∈ keepLast n (first :: first :: later) ↔ c ∈ first :: later) ↔
      later.length + 1 ≤ n := by
  unfold keepLast
  simp only [List.length_cons]
  constructor
  · intro hall
    by_contra hmany
    have hdrop : later.length + 1 + 1 - n = later.length - n + 1 + 1 := by omega
    have hfirst := (hall first).mpr List.mem_cons_self
    rw [hdrop, List.drop_succ_cons, List.drop_succ_cons] at hfirst
    exact hnew (List.mem_of_mem_drop hfirst)
  · intro hfits c
    rcases Nat.lt_or_ge n (later.length + 1 + 1) with hlt | hge
    · have hone : later.length + 1 + 1 - n = 0 + 1 := by omega
      rw [hone, List.drop_succ_cons, List.drop_zero]
    · rw [Nat.sub_eq_zero_of_le hge, List.drop_zero, List.mem_cons]
      exact ⟨fun h => h.elim (fun heq => heq ▸ List.mem_cons_self) id, .inr⟩

section Reads

variable {r : PeriodRequest} {warmup start stop : ℤ}

theorem candlesUpTo_iff (hwarmup : r.warmupStartTime = some warmup)
    (hstop : r.endTime = some stop) (hload : r.load = .ok dataset)
    (hsplit : dataset.points = read ++ x :: rest) (candles : List Candle) :
    CandlesUpTo r warmup x.timestamp candles ↔
      ∀ c, c ∈ candles ↔ c ∈ (read ++ [x]).map (·.toCandle) := by
  refine forall_congr' fun c => iff_congr Iff.rfl ?_
  rw [List.mem_map]
  refine exists_congr fun p => ?_
  rw [mem_read_iff hwarmup hstop hload hsplit, and_assoc, and_assoc]

/-- What the strategies are given after the warm-up. -/
theorem consults_eq (hsplit : dataset.points = read ++ x :: rest)
    (h : HasRead dataset (some start) read s) (hstart : start ≤ x.timestamp) :
    ∃ input, s.consults x.timestamp = some input ∧
      input.callbackCandles = (read ++ [x]).map (·.toCandle) ∧
      input.candles =
        keepLast maxCandles ((dataset.points.head?.toList ++ (read ++ [x])).map (·.toCandle)) := by
  have hobserved := hasRead_observe hsplit h
  have hwarm : ¬ isWarmup s.state x.timestamp = true := by
    rw [isWarmup, h.cutoff_eq]
    simpa using hstart
  refine ⟨_, if_neg hwarm, hobserved.candles_eq, ?_⟩
  exact (getCandles_of_hasRead hobserved _).trans hobserved.stored_eq

/-- The candles of the simulator are all those up to the tick. -/
theorem sees_callbackCandles (hwarmup : r.warmupStartTime = some warmup)
    (hstop : r.endTime = some stop) (hload : r.load = .ok dataset)
    (hsplit : dataset.points = read ++ x :: rest) (h : HasRead dataset (some start) read s)
    (hstart : start ≤ x.timestamp) :
    ∃ input, s.consults x.timestamp = some input ∧
      CandlesUpTo r warmup x.timestamp input.callbackCandles := by
  obtain ⟨input, hinput, hcandles, -⟩ := consults_eq hsplit h hstart
  refine ⟨input, hinput, (candlesUpTo_iff hwarmup hstop hload hsplit _).mpr fun c => ?_⟩
  rw [hcandles]

/-- The candles of the manager are all those up to the tick while they fit into its store. -/
theorem sees_candles_iff (hwarmup : r.warmupStartTime = some warmup)
    (hstop : r.endTime = some stop) (hload : r.load = .ok dataset)
    (hsplit : dataset.points = read ++ x :: rest) (h : HasRead dataset (some start) read s)
    (hstart : start ≤ x.timestamp) :
    (∃ input, s.consults x.timestamp = some input ∧
      CandlesUpTo r warmup x.timestamp input.candles) ↔ (read ++ [x]).length ≤ maxCandles := by
  obtain ⟨input, hinput, -, hcandles⟩ := consults_eq hsplit h hstart
  have hiff : (∃ input, s.consults x.timestamp = some input ∧
      CandlesUpTo r warmup x.timestamp input.candles) ↔
        ∀ c, c ∈ input.candles ↔ c ∈ (read ++ [x]).map (·.toCandle) := by
    rw [← candlesUpTo_iff hwarmup hstop hload hsplit, hinput]
    exact ⟨fun ⟨_, heq, hview⟩ => Option.some.inj heq ▸ hview, fun hview => ⟨input, rfl, hview⟩⟩
  obtain ⟨first, later, hread⟩ := List.exists_cons_of_ne_nil (List.concat_ne_nil x read)
  have hhead : dataset.points.head? = some first := by
    rw [hsplit, List.append_cons, hread]
    rfl
  have hnew : first.toCandle ∉ later.map (·.toCandle) := by
    intro hmem
    obtain ⟨p, hp, heq⟩ := List.mem_map.mp hmem
    have hordered := dataset.ordered
    rw [hsplit, List.append_cons, hread] at hordered
    have hlt := (List.pairwise_cons.mp hordered).1 p (List.mem_append_left _ hp)
    have htime : (p.timestamp : ℚ) = first.timestamp := congrArg Candle.startTime heq
    exact hlt.ne' (Int.cast_injective htime)
  rw [hiff, hcandles, hhead, hread]
  have hwindow := mem_keepLast_cons_iff (n := maxCandles) hnew
  rwa [List.length_map] at hwindow

end Reads

variable (newUuid strategies) in
/-- The result after a whole run: its market series is that of all data points. -/
theorem marketSeries_run (asset : Asset) {started : Simulation}
    (h : HasRead dataset cutoff [] started) :
    (run (Simulation.step newUuid strategies asset) started
      (dataset.points.map (·.timestamp))).collector.marketSeries =
        dataset.points.map (·.toMarketData) :=
  (run_map_invariant (f := (·.timestamp)) (HasRead dataset cutoff)
    (fun hsplit h => hasRead_step newUuid strategies asset hsplit h) (List.nil_append _).symm
    h).series_eq

/-- The period that is reported is that of the market series. -/
theorem reported_eq {c : BacktestResultCollector} {points : List MarketDataPoint}
    (hseries : c.marketSeries = points.map (·.toMarketData)) (hne : points ≠ [])
    (hepoch : ∀ p ∈ points, p.timestamp ≤ 100000000000) :
    c.dataPoints = points.length ∧ c.startTime = points.head?.map (·.timestamp) ∧
      c.endTime = points.getLast?.map (·.timestamp) := by
  have hseconds : ∀ p ∈ points,
      BacktestResultCollector.timestampToDatetime p.toMarketData.timestamp = p.timestamp := by
    intro p hp
    have hle : (p.timestamp : ℚ) ≤ 100000000000 := by exact_mod_cast hepoch p hp
    exact if_neg (not_lt.mpr hle)
  refine ⟨?_, ?_, ?_⟩
  · rw [BacktestResultCollector.dataPoints, hseries, List.length_map]
  · rw [BacktestResultCollector.startTime, hseries, List.head?_map,
      List.head?_eq_some_head hne]
    exact congrArg some (hseconds _ (List.head_mem hne))
  · rw [BacktestResultCollector.endTime, hseries, List.getLast?_map,
      List.getLast?_eq_some_getLast hne]
    exact congrArg some (hseconds _ (List.getLast_mem hne))

/-- Every data point is evaluated exactly when none belongs to the warm-up. -/
theorem evaluated_eq_iff (start : ℤ) {stop : ℤ} (hstop : ∀ p ∈ dataset.points, p.timestamp ≤ stop) :
    dataset.points.map (·.toMarketData) =
      (dataset.evaluated start stop).map (·.toMarketData) ↔
        ∀ p ∈ dataset.points, start ≤ p.timestamp := by
  constructor
  · intro heq p hp
    have hlen : (dataset.evaluated start stop).length = dataset.points.length := by
      simpa using (congrArg List.length heq).symm
    exact (of_decide_eq_true (List.length_filter_eq_length_iff.mp hlen p hp)).1
  · intro hall
    rw [MarketDataSet.evaluated, List.filter_eq_self.mpr]
    exact fun p hp => decide_eq_true ⟨hall p hp, hstop p hp⟩

/-- No tick before the start time is traded. -/
theorem untraded_run (asset : Asset) {start : ℤ} {started : Simulation}
    (h : HasRead dataset (some start) [] started) :
    Along (Simulation.step newUuid strategies asset)
      (fun s timestamp => timestamp < start →
        Untraded s (s.step newUuid strategies asset timestamp))
      started (dataset.points.map (·.timestamp)) := by
  refine (along_map_iff (HasRead dataset (some start))
    (fun hsplit h => hasRead_step newUuid strategies asset hsplit h)
    (Q := fun _ _ => True) (fun hsplit h => iff_of_true (fun hwarm => ?_) trivial)
    (List.nil_append _).symm h).mpr fun _ _ _ _ => trivial
  rw [step_warmup newUuid strategies ((isWarmup_observe hsplit h).mpr hwarm)]
  exact untraded_observe _ _

/-- What the strategies see at every tick after the warm-up. -/
theorem sees_run_iff (asset : Asset) {start : ℤ} {started : Simulation}
    (h : HasRead dataset (some start) [] started) {Sees : Simulation → ℤ → Prop}
    (Fits : List MarketDataPoint → MarketDataPoint → Prop)
    (hiff : ∀ {read x rest s}, dataset.points = read ++ x :: rest →
      HasRead dataset (some start) read s → start ≤ x.timestamp →
      (Sees s x.timestamp ↔ Fits read x)) :
    Along (Simulation.step newUuid strategies asset)
      (fun s timestamp => start ≤ timestamp → Sees s timestamp) started
      (dataset.points.map (·.timestamp)) ↔
        ∀ read x rest, dataset.points = read ++ x :: rest → start ≤ x.timestamp →
          Fits read x := by
  refine (along_map_iff (HasRead dataset (some start))
    (fun hsplit h => hasRead_step newUuid strategies asset hsplit h)
    (Q := fun read x => start ≤ x.timestamp → Fits read x)
    (fun hsplit h => forall_congr' fun hstart => hiff hsplit h hstart)
    (List.nil_append _).symm h).trans ?_
  simp only [List.nil_append]

/-- All but what the strategies see depends on the ticks of the warm-up alone. -/
theorem warmupStaysOut_iff_sees {r : PeriodRequest} {warmup start stop : ℤ}
    (hwarmup : r.warmupStartTime = some warmup) (hstop : r.endTime = some stop)
    (hepoch : ∀ p ∈ r.rows, p.timestamp ≤ 100000000000) (hload : r.load = .ok dataset)
    {started : Simulation} (hticks : started.ticks r = dataset.points.map (·.timestamp))
    (h : HasRead dataset (some start) [] started) (view : StrategyInput → List Candle) :
    WarmupStaysOut newUuid strategies view r warmup start stop dataset started
        (run (Simulation.step newUuid strategies (asBacktestAsset r.asset)) started
          (started.ticks r)).collector ↔
      Along (Simulation.step newUuid strategies (asBacktestAsset r.asset))
        (fun s timestamp => start ≤ timestamp → ∃ input, s.consults timestamp = some input ∧
          CandlesUpTo r warmup timestamp (view input)) started (started.ticks r) ∧
        ∀ p ∈ dataset.points, start ≤ p.timestamp := by
  obtain ⟨hne, hmem⟩ := load_eq_ok hwarmup hstop hload
  have hend : ∀ p ∈ dataset.points, p.timestamp ≤ stop := fun p hp => ((hmem p).mp hp).2.2
  have hseries := marketSeries_run newUuid strategies (asBacktestAsset r.asset) h
  rw [← hticks] at hseries
  -- the ticks of the market series are the evaluated ones if none comes before the start
  have hiff := evaluated_eq_iff start hend
  constructor
  · intro hout
    exact ⟨hout.sees, hiff.mp (hseries.symm.trans hout.market_series)⟩
  · rintro ⟨hsees, hall⟩
    have hpoints : dataset.evaluated start stop = dataset.points :=
      List.filter_eq_self.mpr fun p hp => decide_eq_true ⟨hall p hp, hend p hp⟩
    obtain ⟨hcount, hfirst, hlast⟩ :=
      reported_eq hseries hne fun p hp => hepoch p ((hmem p).mp hp).1
    refine ⟨?_, hsees, ?_, ?_, ?_, ?_⟩
    · rw [hticks]
      exact untraded_run (asBacktestAsset r.asset) h
    all_goals rw [hpoints]
    exacts [hseries, hcount, hfirst, hlast]

/-- **A warm-up with ticks does not stay out of what is reported.**  It stays out exactly when the
    data have no tick in it, for the candles of the simulator; and for the manager's candles, which
    the strategies read, when also not more than 300 ticks are loaded. -/
theorem warmupStaysOut_iff (newUuid : ℕ → String)
    (strategies : BacktestState → Asset → StrategyInput → List OrderRequest) (database : Database)
    (appSession : TradingSession) (headCommitHash : Option String) {r : PeriodRequest}
    {warmup start stop : ℤ} (hwarmup : r.warmupStartTime = some warmup)
    (hstart : r.startTime = some start) (hstop : r.endTime = some stop) (hle : start ≤ stop)
    (hepoch : ∀ p ∈ r.rows, p.timestamp ≤ 100000000000) {dataset : MarketDataSet}
    (hload : r.load = .ok dataset) :
    ∃ started result, startOne database appSession headCommitHash r dataset = some started ∧
      PeriodRequest.runOne newUuid strategies database appSession headCommitHash r = .ok result ∧
      (WarmupStaysOut newUuid strategies (·.callbackCandles) r warmup start stop dataset started
          result.collector ↔
        ∀ p ∈ r.rows, p.timestamp < warmup ∨ start ≤ p.timestamp) ∧
      (WarmupStaysOut newUuid strategies (·.candles) r warmup start stop dataset started
          result.collector ↔
        (∀ p ∈ r.rows, p.timestamp < warmup ∨ start ≤ p.timestamp) ∧
          (r.rows.countP fun p => decide (p.timestamp ≤ stop) && decide (warmup ≤ p.timestamp)) ≤
            maxCandles) := by
  obtain ⟨started, hstarted, hticks, hread⟩ :=
    startOne_eq database appSession headCommitHash r dataset
  have hcutoff : (r.toRequest dataset).warmupCutoff = some start := by
    simp [PeriodRequest.toRequest, hwarmup, hstart]
  rw [hcutoff] at hread
  obtain ⟨hne, hmem⟩ := load_eq_ok hwarmup hstop hload
  have hpoints : (∀ p ∈ dataset.points, start ≤ p.timestamp) ↔
      ∀ p ∈ r.rows, p.timestamp < warmup ∨ start ≤ p.timestamp := by
    constructor
    · intro hall p hp
      by_contra hneither
      obtain ⟨hfrom, hbefore⟩ := not_or.mp hneither
      exact hbefore (hall p ((hmem p).mpr ⟨hp, by omega, by omega⟩))
    · intro hall p hp
      obtain ⟨hrow, hfrom, -⟩ := (hmem p).mp hp
      exact (hall p hrow).resolve_left (not_lt.mpr hfrom)
  refine ⟨started, run (Simulation.step newUuid strategies (asBacktestAsset r.asset)) started
    (started.ticks r), hstarted, ?_, ?_, ?_⟩
  · exact PeriodRequest.runOne_eq newUuid strategies hload hstarted
  · rw [warmupStaysOut_iff_sees hwarmup hstop hepoch hload hticks hread, hticks,
      sees_run_iff (asBacktestAsset r.asset) hread (fun _ _ => True)
        (fun hsplit h hx => iff_of_true
          (sees_callbackCandles hwarmup hstop hload hsplit h hx) trivial), hpoints]
    exact and_iff_right fun _ _ _ _ _ => trivial
  · rw [warmupStaysOut_iff_sees hwarmup hstop hepoch hload hticks hread, hticks,
      sees_run_iff (asBacktestAsset r.asset) hread
        (fun read x => (read ++ [x]).length ≤ maxCandles)
        (fun hsplit h hx => sees_candles_iff hwarmup hstop hload hsplit h hx), hpoints,
      ← length_points hwarmup hstop hload, and_comm]
    refine and_congr_right fun hall => ?_
    constructor
    · intro hfits
      -- the last tick is not before the start
      have hsplit : dataset.points = dataset.points.dropLast ++ [dataset.points.getLast hne] :=
        (List.dropLast_append_getLast hne).symm
      have hlast := hfits _ _ [] hsplit (hpoints.mpr hall _ (List.getLast_mem hne))
      rwa [← hsplit] at hlast
    · intro hfits read x rest hsplit _
      rw [hsplit, List.append_cons, List.length_append] at hfits
      omega

end Proofs

/-! ## §8 Two runs -/

/-- A tick at the price 10. -/
def flatPoint (timestamp : ℤ) : MarketDataPoint where
  timestamp := timestamp
  closePrice := 10
  openPrice := 10
  highPrice := 10
  lowPrice := 10
  volume := 1
  marketCap := 0

/-- From 100 to 200, with a warm-up from 50 on. -/
def warmupRequest (rows : List MarketDataPoint) : PeriodRequest where
  sessionId := "s1"
  asset := ⟨"BTC", "USD", 2, "CRYPTO_DOT_COM", none, none⟩
  rows := rows
  startTime := some 100
  endTime := some 200
  warmupStartTime := some 50
  initialBalance := 1000
  execution := ⟨0, 0, 0⟩

/-- One unit can be ordered. -/
theorem unit_pos : (0 : ℚ) < 1 := one_pos

/-- Buy one unit at the first tick of the period. -/
def buyAtStart (_ : BacktestState) (_ : Asset) (input : StrategyInput) : List OrderRequest :=
  if input.timestamp = 100 then [⟨.buy, 1, unit_pos, 10, none, none, none, none, none, none⟩]
  else []

/-- The ticks at 100 and 200. -/
def twoTicks : MarketDataSet := ⟨[100, 200].map flatPoint, by decide⟩

/-- One more tick, at 60. -/
def threeTicks : MarketDataSet := ⟨[60, 100, 200].map flatPoint, by decide⟩

/-- Rows before the warm-up and after the end are not loaded, and none is in the warm-up. -/
theorem warmupStaysOut_without_ticks :
    ∃ started result,
      startOne .noop ⟨"app", Dict.empty, none⟩ none
          (warmupRequest ([40, 100, 200, 300].map flatPoint)) twoTicks = some started ∧
        WarmupStaysOut sampleUuid buyAtStart (·.candles)
          (warmupRequest ([40, 100, 200, 300].map flatPoint)) 50 100 200 twoTicks started
          result := by
  have hload : (warmupRequest ([40, 100, 200, 300].map flatPoint)).load = .ok twoTicks := rfl
  obtain ⟨started, result, hstarted, -, -, hout⟩ :=
    warmupStaysOut_iff sampleUuid buyAtStart .noop ⟨"app", Dict.empty, none⟩ none rfl rfl rfl
      (by decide) (by decide +kernel) hload
  exact ⟨started, result.collector, hstarted, hout.mpr ⟨by decide +kernel, by decide +kernel⟩⟩

/-- One tick in the warm-up is in the series that is reported. -/
theorem warmup_tick_reported :
    ∃ started result,
      startOne .noop ⟨"app", Dict.empty, none⟩ none
          (warmupRequest ([60, 100, 200].map flatPoint)) threeTicks = some started ∧
        PeriodRequest.runOne sampleUuid buyAtStart .noop ⟨"app", Dict.empty, none⟩ none
          (warmupRequest ([60, 100, 200].map flatPoint)) = .ok result ∧
        result.collector.dataPoints = 3 ∧ result.collector.startTime = some 60 ∧
        ∀ view, ¬ WarmupStaysOut sampleUuid buyAtStart view
          (warmupRequest ([60, 100, 200].map flatPoint)) 50 100 200 threeTicks started
          result.collector := by
  obtain ⟨started, hstarted, hticks, hread⟩ := startOne_eq .noop ⟨"app", Dict.empty, none⟩ none
    (warmupRequest ([60, 100, 200].map flatPoint)) threeTicks
  have hload : (warmupRequest ([60, 100, 200].map flatPoint)).load = .ok threeTicks := rfl
  have hrun := PeriodRequest.runOne_eq sampleUuid buyAtStart hload hstarted
  have hseries := marketSeries_run sampleUuid buyAtStart
    (asBacktestAsset (warmupRequest ([60, 100, 200].map flatPoint)).asset) hread
  rw [← hticks] at hseries
  obtain ⟨hcount, hfirst, -⟩ := reported_eq hseries (by decide) (by decide +kernel)
  refine ⟨started, _, hstarted, hrun, hcount, hfirst.trans (by decide +kernel), fun view hout => ?_⟩
  exact absurd (hcount.symm.trans hout.data_points) (by decide)

end CryptoTrading.Backtest
