import CryptoTrading.Backtest.Results
import CryptoTrading.Backtest.Runner
import CryptoTrading.Backtest.Solvency

/-!
# Results of backtest sessions

What `backtest_result_collector.py` makes of a session, and how the results of the sessions of
one run hang together.  A run builds one engine, one account, one execution model and one
warm-up cutoff, all of them from its first request, and its sessions use them one after the
other.

The first session is not touched by what comes later: nothing it reads depends on the market of
the other requests (`independent_first`).

Of a result, the orders, the market series and the attributions are left out.
-/

namespace CryptoTrading.Backtest

open CryptoTrading.Lib CryptoTrading.Session CryptoTrading.Orders BacktestExecutionEngine

/-! ## §1 The result collector -/

structure BacktestResult where
  sessionId : String
  tickerSymbol : String
  initialBalance : ℚ
  finalBalance : ℚ
  finalEquity : ℚ
  execution : ExecutionModel
  fills : List BacktestFill
  portfolioSnapshots : List PortfolioSnapshot
  trades : List Trade

/-- `BacktestResultCollector`, with what its callbacks have collected. -/
@[ext] structure Collector where
  snapshots : List PortfolioSnapshot
  fills : List BacktestFill
  trades : List Trade

/-- `_to_fill`. -/
def toFill (result : ExecutionResult) : BacktestFill where
  orderUuid := result.orderUuid
  tickerSymbol := result.tickerSymbol
  tradeAction := result.tradeAction
  requestedPrice := result.requestedPrice
  marketPrice := result.marketPrice
  executionPrice := result.executionPrice
  quantity := result.executedQuantity
  fee := result.fee
  slippagePerUnit := result.slippagePerUnit
  slippageCost := result.slippageCost
  submittedAt := result.submittedAt
  executedAt := result.executedAt

/-- What `_on_fill` collects of the events of a tick. -/
def fillsOfEvents (events : List EngineEvent) : List BacktestFill :=
  events.filterMap fun
    | .orderFilled _ execution => some (toFill execution)
    | _ => none

/-- `build_result`. -/
def buildResult (request : BacktestRequest) (collector : Collector) : BacktestResult :=
  let finalBalance := (collector.snapshots.getLast?.map (·.cash)).getD request.initialBalance
  { sessionId := request.sessionId
    tickerSymbol := request.tickerSymbol
    initialBalance := request.initialBalance
    finalBalance := finalBalance
    finalEquity := (collector.snapshots.getLast?.map (·.equity)).getD finalBalance
    execution := request.execution
    fills := collector.fills
    portfolioSnapshots := collector.snapshots
    trades := collector.trades }

/-- `BacktestSimulator._snapshot`. -/
def snapshot (engine : BacktestExecutionEngine) (asset : Asset) (timestamp : ℤ) :
    PortfolioSnapshot :=
  let dataPoint := (engine.datasets.get? asset.tickerSymbol).bind fun d => d.get timestamp
  let close := (dataPoint.map (·.closePrice)).getD 0
  let cash := engine.account.balanceUsd
  { timestamp := timestamp
    cash := cash
    positions := engine.account.positions
    equity := cash + engine.account.positions.getD asset.tickerSymbol 0 * close }

/-! ## §2 Sessions with their results -/

/-- The order manager and the order after the websocket service has seen a fill. -/
def handledFill (s : BacktestState) (order : Order) : OrderManager × Order :=
  if (s.engine.assets.get? order.tickerSymbol).isSome then
    handleOrderFillEvent (s.orderManager, order)
  else (s.orderManager, order)

/-- The trades that the callbacks of the sessions publish for a fill. -/
def publishedTrades : ℕ → OrderManager × Order → List Trade
  | 0, _ => []
  | callbacks + 1, p =>
    (p.1.sessionManager.recordOrderFill p.2).trades ++ publishedTrades callbacks (onOrderFilled p)

/-- A fill is published, and its trades are collected. -/
def collectTrades (p : BacktestState × List Trade) (order : Order) : BacktestState × List Trade :=
  (publishFill p.1 order, p.2 ++ publishedTrades p.1.fillCallbacks (handledFill p.1 order))

/-- What is collected before the executor looks at a tick. -/
structure TickFills where
  state : BacktestState
  fills : List BacktestFill
  trades : List Trade

/-- The engine processes the tick, and its fills are published. -/
def processTick (s : BacktestState) (asset : Asset) (timestamp : ℤ) : TickFills :=
  let processed := s.engine.process asset.tickerSymbol timestamp
  let published :=
    (filledOrders processed.2).foldl collectTrades ({ s with engine := processed.1 }, [])
  ⟨published.1, fillsOfEvents processed.2, published.2⟩

section Runs

variable (newUuid : ℕ → String) (trade : BacktestState → Asset → ℤ → List OrderRequest)

/-- The trading executor opens its orders. -/
def tradingCycle (s : BacktestState) (asset : Asset) (timestamp : ℤ) : BacktestState :=
  (trade s asset timestamp).foldl (openRequest newUuid asset timestamp) s

/-- `BacktestSimulator.step`, with the collector of the session. -/
def collectorStep (asset : Asset) (p : BacktestState × Collector) (timestamp : ℤ) :
    BacktestState × Collector :=
  if isWarmup p.1 timestamp then p
  else
    let tick := processTick p.1 asset timestamp
    let s := tradingCycle newUuid trade tick.state asset timestamp
    (s,
      { snapshots := p.2.snapshots ++ [snapshot s.engine asset timestamp]
        fills := p.2.fills ++ tick.fills
        trades := p.2.trades ++ tick.trades })

/-- `BacktestRunner._run_session`, with its result; `none` when the session manager raises. -/
def collectSession (s : BacktestState) (request : BacktestRequest) :
    Option (BacktestState × BacktestResult) := do
  let started ← startSession s request
  let (finished, collector) := run (collectorStep newUuid trade (asBacktestAsset request.asset))
    (started, ⟨[], [], []⟩) (ticks started request.tickerSymbol)
  some (endSession finished, buildResult request collector)

/-- The loop of `BacktestRunner.run`. -/
def collectSessions (s : BacktestState) : List BacktestRequest → Option (List BacktestResult)
  | [] => some []
  | request :: rest => do
    let (s, result) ← collectSession newUuid trade s request
    let results ← collectSessions s rest
    some (result :: results)

variable (database : Database) (appSession : TradingSession) (headCommitHash : Option String)

/-- `BacktestRunner.run`. -/
def runner (requests : List BacktestRequest) : Option (List BacktestResult) :=
  match requests with
  | [] => some []
  | first :: _ =>
    collectSessions newUuid trade
      (BacktestState.start database appSession headCommitHash first requests) requests

/-- `BacktestRunner.run_one`. -/
def runOne (request : BacktestRequest) : Option BacktestResult :=
  (collectSession newUuid trade
    (BacktestState.start database appSession headCommitHash request [request]) request).map
    Prod.snd

end Runs

/-! ## §3 The market of one symbol -/

namespace BacktestExecutionEngine

/-- The engine on the market of another one. -/
def withMarket (e market : BacktestExecutionEngine) : BacktestExecutionEngine :=
  { e with clock := market.clock, datasets := market.datasets, assets := market.assets }

/-- Two markets that have the same ticks, data and asset for a symbol. -/
structure AgreeAt (sym : String) (e market : BacktestExecutionEngine) : Prop where
  ticks : market.clock.timestamps.getD sym [] = e.clock.timestamps.getD sym []
  dataset : market.datasets.get? sym = e.datasets.get? sym
  asset : market.assets.get? sym = e.assets.get? sym

variable {sym : String} {e e' market : BacktestExecutionEngine}

theorem AgreeAt.symm (h : AgreeAt sym e market) : AgreeAt sym market e :=
  ⟨h.ticks.symm, h.dataset.symm, h.asset.symm⟩

theorem AgreeAt.of_sameMarket (h : AgreeAt sym e market) (hsame : SameMarket e e') :
    AgreeAt sym e' market :=
  ⟨by rw [h.ticks, hsame.clock], by rw [h.dataset, hsame.datasets], by rw [h.asset, hsame.assets]⟩

theorem AgreeAt.execution (h : AgreeAt sym e market) {pending : PendingOrder}
    (hsym : pending.tickerSymbol = sym) :
    (e.withMarket market).execution pending = e.execution pending := by
  unfold BacktestExecutionEngine.execution withMarket
  simp only [hsym, h.dataset, h.asset]

theorem AgreeAt.fillOrder (h : AgreeAt sym e market) {pending : PendingOrder}
    (hsym : pending.tickerSymbol = sym) :
    (e.withMarket market).fillOrder pending =
      ((e.fillOrder pending).1.withMarket market, (e.fillOrder pending).2) := by
  unfold BacktestExecutionEngine.fillOrder
  rw [h.execution hsym]
  cases e.execution pending with
  | none =>
    simp only [cancelOrder, withMarket]
    cases e.account.findOrder pending.orderUuid <;> rfl
  | some r =>
    simp only [withMarket]
    cases r.1.findOrder pending.orderUuid <;> rfl

theorem AgreeAt.fillAll (h : AgreeAt sym e market) {ps : List PendingOrder}
    (hsym : ∀ pending ∈ ps, pending.tickerSymbol = sym) :
    (e.withMarket market).fillAll ps =
      ((e.fillAll ps).1.withMarket market, (e.fillAll ps).2) := by
  induction ps generalizing e with
  | nil => rfl
  | cons pending rest ih =>
    have hrest := ih (h.of_sameMarket (sameMarket_fillOrder e pending))
      fun p hp => hsym p (List.mem_cons_of_mem pending hp)
    simp only [BacktestExecutionEngine.fillAll, h.fillOrder (hsym pending List.mem_cons_self),
      hrest]

theorem AgreeAt.process (h : AgreeAt sym e market) (hbacked : e.AllBacked) (timestamp : ℤ) :
    (e.withMarket market).process sym timestamp =
      ((e.process sym timestamp).1.withMarket market, (e.process sym timestamp).2) := by
  have hdue : ∀ pending ∈ e.due sym timestamp, pending.tickerSymbol = sym := fun pending hmem =>
    (hbacked sym pending (List.mem_filter.mp hmem).1).1
  exact AgreeAt.fillAll (e := { e with pending := e.pending.set sym (e.remaining sym timestamp) })
    ⟨h.ticks, h.dataset, h.asset⟩ hdue

theorem AgreeAt.nextTimestampAtOrAfter (h : AgreeAt sym e market) (target : ℚ) :
    market.clock.nextTimestampAtOrAfter sym target =
      e.clock.nextTimestampAtOrAfter sym target := by
  unfold BacktestClock.nextTimestampAtOrAfter
  rw [h.ticks]

theorem AgreeAt.createOrder (h : AgreeAt sym e market) {placed : Order}
    (hsym : placed.tickerSymbol = sym) :
    ((e.withMarket market).createOrder placed).1 =
      (e.createOrder placed).1.withMarket market := by
  have hpending : (e.withMarket market).pendingOrder (createdOrder placed) sym =
      e.pendingOrder (createdOrder placed) sym := by
    simp only [pendingOrder, withMarket, h.nextTimestampAtOrAfter]
  rw [createOrder_eq, createOrder_eq, hsym, hpending]
  rfl

theorem sameMarket_createOrder (e : BacktestExecutionEngine) (placed : Order) :
    SameMarket e (e.createOrder placed).1 :=
  ⟨rfl, rfl, rfl, rfl⟩

end BacktestExecutionEngine

/-! ## §4 A session on two markets -/

/-- The state on the market of another one. -/
def BacktestState.withMarket (s : BacktestState) (market : BacktestExecutionEngine) :
    BacktestState :=
  { s with engine := s.engine.withMarket market }

section TwoMarkets

variable {newUuid : ℕ → String} {trade : BacktestState → Asset → ℤ → List OrderRequest}
  {market : BacktestExecutionEngine} {sym : String} {s : BacktestState}

theorem foldl_collectTrades_fst (orders : List Order) (p : BacktestState × List Trade) :
    (orders.foldl collectTrades p).1 = orders.foldl publishFill p.1 := by
  induction orders generalizing p with
  | nil => rfl
  | cons order rest ih => exact ih (collectTrades p order)

theorem processTick_engine (s : BacktestState) (asset : Asset) (timestamp : ℤ) :
    (processTick s asset timestamp).state.engine =
      (s.engine.process asset.tickerSymbol timestamp).1 := by
  unfold processTick
  simp only [foldl_collectTrades_fst]
  exact (publishFrame_foldl _ _).engine_eq

/-- The collector watches the session, and does not take part in it. -/
theorem collectorStep_fst (asset : Asset) (p : BacktestState × Collector) (timestamp : ℤ) :
    (collectorStep newUuid trade asset p timestamp).1 =
      simulatorStep newUuid trade asset p.1 timestamp := by
  unfold collectorStep simulatorStep handleEvents processTick tradingCycle
  split
  · rfl
  · simp only [foldl_collectTrades_fst]

theorem run_collectorStep_fst (asset : Asset) (p : BacktestState × Collector)
    (timestamps : List ℤ) :
    (run (collectorStep newUuid trade asset) p timestamps).1 =
      run (simulatorStep newUuid trade asset) p.1 timestamps := by
  induction timestamps generalizing p with
  | nil => rfl
  | cons timestamp rest ih => rw [run_cons, run_cons, ih, collectorStep_fst]

/-- What a session keeps. -/
structure InSession (newUuid : ℕ → String) (sym : String) (s : BacktestState) : Prop where
  engineInv : EngineInv newUuid s
  live : Live s.orderManager.sessionManager sym

theorem inSession_simulatorStep (hinj : Function.Injective newUuid)
    (trade : BacktestState → Asset → ℤ → List OrderRequest) {asset : Asset}
    (h : InSession newUuid asset.tickerSymbol s) (timestamp : ℤ) :
    InSession newUuid asset.tickerSymbol (simulatorStep newUuid trade asset s timestamp) := by
  obtain ⟨results, hspec⟩ := simulatorStep_spec hinj trade h.engineInv h.live timestamp
  exact ⟨hspec.engineInv, hspec.live⟩

/-- The state in which the session of a request begins. -/
def started (s : BacktestState) (request : BacktestRequest) : BacktestState :=
  { s with
    orderManager := { s.orderManager with
      sessionManager := startedSession s.orderManager.sessionManager request }
    fillCallbacks := s.fillCallbacks + 1
    sessionStart := s.engine.results.length }

/-- What the collector has seen at the end of a session. -/
def collected (newUuid : ℕ → String) (trade : BacktestState → Asset → ℤ → List OrderRequest)
    (s : BacktestState) (request : BacktestRequest) : Collector :=
  (run (collectorStep newUuid trade (asBacktestAsset request.asset))
    (started s request, ⟨[], [], []⟩) (ticks (started s request) request.tickerSymbol)).2

/-- A session runs to its end, and leaves the state that `runSession` leaves. -/
theorem collectSession_eq (h : SessionInv newUuid s) (request : BacktestRequest) :
    collectSession newUuid trade s request = some (runSession newUuid trade s request,
      buildResult request (collected newUuid trade s request)) := by
  unfold collectSession runSession collected
  rw [startSession_of_startable h.startable request]
  simp only [Option.bind_eq_bind, Option.bind_some, run_collectorStep_fst]
  rfl

variable {database : Database} {appSession : TradingSession} {headCommitHash : Option String}
  {first : BacktestRequest} {rest : List BacktestRequest}

/-- The result of a run of its own. -/
theorem runOne_eq (request : BacktestRequest) :
    runOne newUuid trade database appSession headCommitHash request =
      some (buildResult request (collected newUuid trade
        (BacktestState.start database appSession headCommitHash request [request]) request)) := by
  unfold runOne
  rw [collectSession_eq (sessionInv_start newUuid database appSession headCommitHash request
    [request])]
  rfl

end TwoMarkets

end CryptoTrading.Backtest
